import TreeInspector.Proofs.Desk.Provenance
import TreeInspector.Proofs.Session.Jumps

/-!
# Jumps at a desk

As long as neither its output nor its journal fails, a desk answers all sessions of its sources, and
a jump to a line comes to one of two things. It is refused, and the inspector says why; then there
is a message in the journal and no other change. Or it arrives, and the source has the span of the
line selected. Nothing else can go wrong, since the lines come from trees of texts and their spans
can be shown.
-/

set_option autoImplicit false

namespace TreeInspector

namespace Desk

section

variable {C : Type} {w w₁ w' : World Desk C} {source : SourceId} {s : SourceFile}

/-- The desk with a span of a source selected. -/
def selecting (source : SourceId) (span : Span) (highlight : Bool) (d : Desk) : Desk :=
  { d with
    sources := d.sources.modify source
      ({ · with selection := some span, highlighted := highlight }) }

/-- Nothing has happened but that something was written, logged or noted, or that the client has
changed, and the desk is still reliable. -/
structure Calm (w w' : World Desk C) : Prop where
  aside : Aside w w'
  reliable : w'.host.Reliable

/-- Nothing needs to happen. -/
theorem Aside.refl (w : World Desk C) : Aside w w := ⟨_, _, _, _, rfl⟩

/-- What happens aside may happen in two stretches. -/
theorem Aside.trans (first : Aside w w₁) (second : Aside w₁ w') : Aside w w' := by
  obtain ⟨_, _, _, _, rfl⟩ := first
  obtain ⟨output, messages, trace, c, rfl⟩ := second
  exact ⟨output, messages, trace, c, rfl⟩

/-- A reliable desk is calm while nothing happens. -/
theorem Calm.refl (hw : w.host.Reliable) : Calm w w := ⟨.refl w, hw⟩

/-- It stays calm through two calm stretches. -/
theorem Calm.trans (first : Calm w w₁) (second : Calm w₁ w') : Calm w w' :=
  ⟨first.aside.trans second.aside, second.reliable⟩

/-- A reliable desk writes and stays calm. -/
theorem write_calm (hw : w.host.Reliable) (text : String) :
    (write text : Action Desk C Unit).EndsWell w fun _ w' => Calm w w' :=
  write_ensures hw text fun _ houtput => ⟨⟨_, _, _, _, rfl⟩, houtput, hw.2⟩

/-- A reliable desk logs and stays calm. -/
theorem log_calm (hw : w.host.Reliable) (message : String) :
    (log message : Action Desk C Unit).EndsWell w fun _ w' => Calm w w' :=
  log_ensures hw message fun _ => ⟨⟨_, _, _, _, rfl⟩, hw⟩

/-- A span with whole offsets can be selected in a source that is open. -/
theorem focus_calm (hw : w.host.Reliable) (hs : w.host.sources[source]? = some s)
    (hopen : s.closed = false) {span : Span} (hspan : span.Whole) (highlight : Bool) :
    (focus source span highlight : Action Desk C Unit).EndsWell w fun _ w' =>
      Calm (w.beside (w.host.selecting source span highlight) w.client) w' := by
  obtain ⟨rows, hrows⟩ := focusReport_of_whole s.name (Text.units s.text) hspan highlight
  unfold Action.EndsWell Action.Ensures
  rw [focus_of_report hs hopen hrows]
  exact write_calm (w := w.beside (w.host.selecting source span highlight) w.client) hw _

/-! ## The desk answers -/

/-- A source that is there is available iff it is open. -/
theorem isAvailable_eq (hs : w.host.sources[source]? = some s) :
    (host : Host Desk C).isAvailable source w = .ok (!s.closed) w :=
  Action.bind_of_ok (findSource_eq hs) _

/-- If the desk says whether a source is available, it says whether it is open. -/
theorem available_of_eq {available : Bool} (hs : w.host.sources[source]? = some s)
    (h : (host : Host Desk C).isAvailable source w = .ok available w₁) :
    available = !s.closed ∧ w₁ = w := by
  rw [isAvailable_eq hs] at h
  generalize (!s.closed) = isOpen at h ⊢
  cases h
  exact ⟨rfl, rfl⟩

/-- A source that is there is called by its name. -/
theorem sourceName_eq (hs : w.host.sources[source]? = some s) :
    (host : Host Desk C).sourceName source w = .ok s.name w :=
  Action.bind_of_ok (findSource_eq hs) _

/-- Telling the name of a source changes nothing. -/
theorem same_of_named {title : String}
    (h : (host : Host Desk C).sourceName source w = .ok title w₁) : w₁ = w := by
  have hsame : ((host : Host Desk C).sourceName source).Ensures w (fun _ w' => w' = w)
      fun _ _ => True :=
    Action.ensures_bind.2 (findSource_settled (fun _ _ => rfl) fun _ => trivial)
  exact (Action.ensures_of_ok h).1 hsame

/-- The desk is reliable and has the source. -/
def Serves (source : SourceId) (w : World Desk C) : Prop :=
  w.host.Reliable ∧ ∃ s, w.host.sources[source]? = some s

/-- A desk still serves a source if neither its reliability nor its trees have changed. -/
theorem Serves.of_left (hw : Serves source w) (hleft : Left footing w w') :
    Serves source w' := by
  obtain ⟨d, c, rfl, hsame⟩ := hleft
  obtain ⟨hreliable, s, hs⟩ := hw
  have hfailing : d.output.failing = w.host.output.failing := congrArg Prod.fst hsame
  have hjournal : d.journal = w.host.journal := congrArg (·.2.1) hsame
  have htrees : d.sources.map (·.tree) = w.host.sources.map (·.tree) := congrArg (·.2.2) hsame
  refine ⟨⟨hfailing.trans hreliable.1, ?_⟩, ?_⟩
  · rw [World.beside_host, hjournal]
    exact hreliable.2
  · have htree := congrArg (·[source]?) htrees
    simp only [List.getElem?_map, hs, Option.map_some] at htree
    obtain ⟨s', hs', -⟩ := Option.map_eq_some_iff.1 htree
    exact ⟨s', hs'⟩

/-- Sessions of a source get an answer to whatever they ask of it. -/
theorem host_answers (source : SourceId) :
    (host : Host Desk C).Answers source (Serves source) where
  isAvailable w hw := by
    obtain ⟨s, hs⟩ := hw.2
    exact Action.endsWell_of_ok (isAvailable_eq hs) ⟨hw, World.persists_of_sessions rfl⟩
  sourceName w hw := by
    obtain ⟨s, hs⟩ := hw.2
    exact Action.endsWell_of_ok (sourceName_eq hs) ⟨hw, World.persists_of_sessions rfl⟩
  focus span highlight w hw := by
    refine (focus_leaves_footing span highlight w).mono ?_ fun _ _ hleft => hw.of_left hleft
    intro _ w' hleft
    refine ⟨hw.of_left hleft, ?_⟩
    obtain ⟨d, c, rfl, -⟩ := hleft
    exact World.persists_of_sessions rfl
  log message w hw := (log_calm hw.1 message).mono fun _ _ _ => trivial

/-! ## Ending a session -/

/-- Nothing keeps an active session of a source from being disabled. -/
theorem disable_ends {id : SessionId} {t : Session} (hw : w.host.Reliable)
    (ht : w.sessions[id]? = some t) (hactive : t.state = .active)
    (hs : w.host.sources[t.source]? = some s) :
    (Registry.disable host id : Action Desk C Unit).EndsWell w fun _ w' =>
      ∃ t', w'.sessions[id]? = some t' ∧ t'.state = .inactive := by
  obtain ⟨binding, hbound⟩ := Session.state_eq_active_iff.1 hactive
  obtain ⟨b, hb, hbinding⟩ := Session.binding?_eq_some_iff.1 hbound
  refine (Session.finish_finishes host_honours hw ht hb hbinding .disable .disabled).mono ?_ ?_
  · rintro _ _ ⟨-, does⟩
    cases does with
    | done name ends view logs =>
      exact ⟨_, World.getElem?_modifySession_self ht _, rfl⟩
  · rintro e _ ⟨-, does⟩
    cases does with
    | unnamed name =>
      have hnamed := name.2
      simp [Gist.page?, gist, hs, Except.toOption] at hnamed
    | interrupted name ends => exact terms_keep_books.not_unsubscribesUntil ends
    | viewLeft name ends view => cases view.1

end

end Desk

/-! ## Jumps to lines -/

section

variable {C : Type} {w w' : World Desk C} {id : SessionId} {s : Session} {file : SourceFile}

/-- The lines of the tree of a text lead to whole offsets, and they lead anywhere iff there is
navigation. -/
theorem Session.Shows.linesLead {options : Options} {lines : List ViewLine}
    (h : Session.Shows options lines) :
    ∀ line ∈ lines, line.span.isSome = options.navigation ∧ line.Whole := by
  obtain ⟨t, ⟨text, rfl⟩, rfl⟩ := h
  exact fun line hline => ⟨span_isSome_of_mem_render hline,
    Document.render_analyze_whole _ text options.navigation hline⟩

/-- The lines of a session lead to a span with whole offsets if navigation is on, and nowhere if it
is not. -/
theorem Session.Rendered.linesLead (hs : s.Rendered) :
    ∀ line ∈ s.lines, line.span.isSome = s.options.navigation ∧ line.Whole := by
  cases hbound : s.binding? with
  | none =>
    intro line hline
    unfold Session.lines at hline
    rw [hbound] at hline
    cases hline
  | some binding =>
    rw [Session.lines_of_binding? hbound]
    exact (hs.shows hbound).linesLead

/-- What comes of a jump to a line: an error of the inspector, or the span of the line is
selected. -/
inductive Session.Jumps (s : Session) (x : Number) (w : World Desk C) :
    Except Failure Session.Jump → World Desk C → Prop where
  | refused {e : ViewError} {w' : World Desk C} (calm : Desk.Calm w w') :
      Jumps s x w (.error (.view e)) w'
  | arrives {i : Nat} {line : ViewLine} {span : Span} {w' : World Desk C} (index : x = i)
      (isLine : s.lines[i]? = some line) (leads : line.span = some span)
      (calm : Desk.Calm
        (w.beside (w.host.selecting s.source span s.options.highlight) w.client) w') :
      Jumps s x w (.ok ⟨span, s.options.highlight⟩) w'

open Desk in
/-- A jump to a line of a session is refused without a trace but in the journal, or selects the span
of that line. -/
theorem Session.jumps (hw : w.Sourced) (hs : w.sessions[id]? = some s)
    (hfile : w.host.sources[s.source]? = some file) (x : Number) :
    s.Jumps x w ((Registry.navigate Desk.host id x).outcome w).1
      ((Registry.navigate Desk.host id x).outcome w).2 := by
  have hrendered := (hw.rendered.at hs).linesLead
  have hreliable := hw.fit.1
  have hlead : s.LinesLead := fun line hline => (hrendered line hline).1
  have hnavigates := Session.navigate_navigates hs (host_answers s.source)
    ⟨hreliable, file, hfile⟩ hlead (fun _ => rfl) x
  have hnoted : ∀ {e : ViewError} {w' : World Desk C},
      Desk.host.NotesFailure (.view e) w w' → s.Jumps x w (.error (.view e)) w' := fun noted =>
    .refused ((Action.ensures_of_ok noted).1 (log_calm hreliable _))
  generalize ((Registry.navigate Desk.host id x).outcome w).1 = r at hnavigates ⊢
  generalize ((Registry.navigate Desk.host id x).outcome w).2 = w' at hnavigates ⊢
  cases hnavigates with
  | gone inactive ended named noted =>
    obtain rfl := same_of_named named
    exact hnoted noted
  | unbound inactive ended noted => exact hnoted noted
  | noLine active outside noted => exact hnoted noted
  | nowhere active isLine off noted => exact hnoted noted
  | unavailable active isLine on asked named noted =>
    obtain ⟨-, rfl⟩ := available_of_eq hfile asked
    obtain rfl := same_of_named named
    exact hnoted noted
  | unfocused active isLine on leads asked fails noted =>
    obtain ⟨hopen, rfl⟩ := available_of_eq hfile asked
    have hwhole := (hrendered _ isLine.mem).2 _ leads
    exact ((Action.ensures_of_error fails).1
      (focus_calm hreliable hfile (by simpa using hopen.symm) hwhole s.highlights)).elim
  | arrives active isLine on leads asked focused named noted =>
    obtain ⟨hopen, rfl⟩ := available_of_eq hfile asked
    obtain ⟨i, hx, hline⟩ := isLine
    have hwhole := (hrendered _ (List.mem_of_getElem? hline)).2 _ leads
    have hhighlights : s.highlights = s.options.highlight := by
      unfold Session.highlights
      rw [on, Bool.true_and]
    rw [hhighlights] at focused ⊢
    have hfocused := (Action.ensures_of_ok focused).1
      (focus_calm hreliable hfile (by simpa using hopen.symm) hwhole s.options.highlight)
    obtain rfl := same_of_named named
    exact .arrives hx hline leads
      (hfocused.trans ((Action.ensures_of_ok noted).1 (log_calm hfocused.reliable _)))

/-! ## Trees and lines -/

/-- All trees and lines are still those of texts if nothing has happened but aside. -/
theorem Desk.Calm.sourced (h : Desk.Calm w w') (hw : w.Sourced) : w'.Sourced := by
  obtain ⟨⟨output, messages, trace, c, rfl⟩, hreliable⟩ := h
  exact ⟨⟨hreliable, hw.fit.2⟩, hw.rendered⟩

/-- A jump leaves the trees of sources and the lines of sessions as they are. -/
theorem Session.Jumps.sourced {x : Number} {r : Except Failure Session.Jump}
    (h : s.Jumps x w r w') (hw : w.Sourced) : w'.Sourced := by
  cases h with
  | refused calm => exact calm.sourced hw
  | arrives index isLine leads calm =>
    refine calm.sourced ⟨Desk.fit_of_footing ?_ hw.fit, hw.rendered⟩
    exact Desk.footing_modifySource (by exact fun _ => rfl) s.source w.host

end

end TreeInspector
