import TreeInspector.Proofs.Desk.Focus
import TreeInspector.Proofs.Desk.Ground
import TreeInspector.Proofs.Session.Passage

/-!
# Where lines come from

The lines that a session shows are those of the tree of a text. Sources take their trees from texts
only, and sessions their lines from the trees of sources; whatever happens at a desk, and however it
ends, this stays so, as long as those who listen beside the sessions do not break it.
-/

set_option autoImplicit false

namespace TreeInspector

/-- The tree is that of a text. -/
def ParseTree.Parsed (t : ParseTree) : Prop :=
  ∃ text, t = (Document.analyze Document.lenient text).root

namespace Session

/-- The lines are those of the tree of a text, with or without spans as the options say. -/
def Shows (options : Options) (lines : List ViewLine) : Prop :=
  ∃ t : ParseTree, t.Parsed ∧ lines = t.render options.navigation

/-- All that the session shows, or has shown, are lines of trees of texts. -/
def Rendered (s : Session) : Prop := ∀ binding ∈ s.bindings, Shows s.options binding.lines

section

variable {s : Session}

/-- A change of one binding that keeps to lines of texts keeps all that the session shows so. -/
theorem Rendered.modify (hs : s.Rendered) (b : Nat) {f : Binding → Binding}
    (hf : ∀ binding, Shows s.options binding.lines → Shows s.options (f binding).lines) :
    ({ s with bindings := s.bindings.modify b f } : Session).Rendered := by
  intro binding hbinding
  obtain ⟨i, hi⟩ := List.mem_iff_getElem?.1 hbinding
  rw [List.getElem?_modify] at hi
  obtain ⟨before, hbefore, rfl⟩ := Option.map_eq_some_iff.1 hi
  have hshows := hs before (List.mem_of_getElem? hbefore)
  split
  · exact hf before hshows
  · exact hshows

/-- A binding with lines of a text may be added. -/
theorem Rendered.bound (hs : s.Rendered) {binding : Binding}
    (hlines : Shows s.options binding.lines) : (s.bound binding).Rendered := by
  intro other hother
  rcases List.mem_append.1 hother with hold | hnew
  · exact hs other hold
  · rw [List.mem_singleton.1 hnew]
    exact hlines

/-- A bound session shows the lines of a text. -/
theorem Rendered.shows (hs : s.Rendered) {binding : Binding}
    (hbound : s.binding? = some binding) : Shows s.options binding.lines := by
  obtain ⟨b, -, hbinding⟩ := binding?_eq_some_iff.1 hbound
  exact hs binding (List.mem_of_getElem? hbinding)

end

end Session

/-- The tree that a source gives is the one that it has. -/
theorem SourceFile.tree_of_currentTree {s : SourceFile} {t : ParseTree}
    (h : s.currentTree = .ok t) : s.tree = some t := by
  unfold currentTree at h
  split at h
  case h_1 hparsed =>
    cases h
    exact hparsed
  case h_2 => cases h

/-- A write counts, but does not change which write fails. -/
theorem Sink.failing_write (text : String) (s : Sink) : (s.write text).2.failing = s.failing := by
  unfold write
  dsimp only
  split <;> rfl

namespace Desk

/-- The trees of all sources are those of texts. -/
def Parsed (d : Desk) : Prop := ∀ tree ∈ d.sources.map (·.tree), ∀ t, tree = some t → t.Parsed

/-- How the output and the journal fail, and the trees of the sources. -/
def footing (d : Desk) : Option Nat × JournalKind × List (Option ParseTree) :=
  (d.output.failing, d.journal, d.sources.map (·.tree))

/-- The desk is reliable, and the trees are those of texts, whatever is called; so are those that
are handed out. -/
def parsedTerms : Terms Desk where
  fit d := d.Reliable ∧ d.Parsed
  tree _ _ r _ := ∀ t, r = .ok t → t.Parsed
  subscribe _ _ _ _ _ _ := True
  unsubscribe _ _ _ _ := True
  isAvailable _ _ _ _ := True
  sourceName _ _ _ _ := True
  createView _ _ _ _ := True
  showLines _ _ _ _ _ := True
  destroyView _ _ _ _ := True
  focus _ _ _ _ _ _ := True
  log _ _ _ := True

section

variable {C α : Type} {w : World Desk C} {source : SourceId}

/-- Whether the desk is reliable, with trees of texts, depends on its footing only. -/
theorem fit_of_footing {d d' : Desk} (hsame : d'.footing = d.footing) (hd : parsedTerms.fit d) :
    parsedTerms.fit d' := by
  have hfailing : d'.output.failing = d.output.failing := congrArg Prod.fst hsame
  have hjournal : d'.journal = d.journal := congrArg (·.2.1) hsame
  have htrees : d'.sources.map (·.tree) = d.sources.map (·.tree) := congrArg (·.2.2) hsame
  refine ⟨⟨hfailing.trans hd.1.1, ?_⟩, ?_⟩
  · rw [hjournal]
    exact hd.1.2
  · unfold Parsed
    rw [htrees]
    exact hd.2

/-- A change of a source that keeps its tree keeps the footing. -/
theorem footing_modifySource {f : SourceFile → SourceFile} (hf : ∀ s, (f s).tree = s.tree)
    (source : SourceId) (d : Desk) :
    ({ d with sources := d.sources.modify source f } : Desk).footing = d.footing := by
  have htrees : (d.sources.modify source f).map (·.tree) = d.sources.map (·.tree) := by
    apply List.ext_getElem?
    intro i
    rw [List.getElem?_map, List.getElem?_map, List.getElem?_modify]
    by_cases hi : source = i
    · simp [hi, hf, Function.comp_def]
    · simp [hi]
  unfold footing
  rw [htrees]

/-! ## The desk as a host -/

/-- An action that leaves the footing keeps to the terms. -/
theorem Leaves.obeys_parsed {a : Action Desk C α} (ha : Leaves footing a) :
    a.Obeys parsedTerms.fit fun _ _ _ => True := by
  intro w hfit
  refine (ha w).mono ?_ ?_
  · rintro _ _ ⟨d, c, rfl, hd⟩
    exact ⟨d, c, rfl, fit_of_footing hd hfit, trivial⟩
  · rintro _ _ ⟨d, c, rfl, hd⟩
    exact ⟨d, c, rfl, fit_of_footing hd hfit, trivial⟩

/-- A change of a source that keeps its tree leaves the footing. -/
theorem modifySource_leaves_footing {f : SourceFile → SourceFile}
    (hf : ∀ s, (f s).tree = s.tree) :
    Leaves footing (modifySource source f : Action Desk C Unit) :=
  leaves_modifyHost fun d => footing_modifySource hf source d

/-- Whether a write fails or not, only the output changes. -/
theorem write_after (text : String) (w : World Desk C) :
    ((write text).outcome w).2 =
      w.beside { w.host with output := (w.host.output.write text).2 } w.client := by
  unfold write Action.outcome
  rw [Action.bind_host]
  obtain ⟨result, output⟩ := w.host.output.write text
  cases result <;> rfl

/-- Writing leaves the footing. -/
theorem write_leaves_footing (text : String) :
    Leaves footing (write text : Action Desk C Unit) := by
  refine Action.stays_iff.2 fun w => ?_
  rw [write_after]
  refine ⟨_, _, rfl, ?_⟩
  unfold footing
  rw [Sink.failing_write]

/-- The footing does not depend on who listens. -/
theorem footing_unlistened : Unlistened footing where
  subscriptions _ _ := rfl
  listeners d source event change :=
    footing_modifySource (fun s => by cases event <;> rfl) source d

/-- The footing does not depend on what is watched. -/
theorem footing_unwatched : Unwatched footing where
  watchers _ _ := rfl
  trace _ _ := rfl
  watcher d source _ := footing_modifySource (by exact fun _ => rfl) source d

/-- Logging leaves the footing. -/
theorem log_leaves_footing (message : String) :
    Leaves footing (log message : Action Desk C Unit) := leaves_log (fun _ _ => rfl) message

/-- Asking for an open source leaves the footing. -/
theorem requireOpen_leaves_footing :
    Leaves footing (requireOpen source : Action Desk C SourceFile) :=
  fun w => requireOpen_ensures (fun _ _ => .refl footing w) fun _ _ _ => .refl footing w

/-- Moving the focus leaves the footing. -/
theorem focus_leaves_footing (span : Span) (highlight : Bool) :
    Leaves footing (focus source span highlight : Action Desk C Unit) :=
  requireOpen_leaves_footing.bind fun _ =>
    (modifySource_leaves_footing (by exact fun _ => rfl)).bind fun _ =>
      (leaves_ofExcept _).bind fun _ => write_leaves_footing _

/-- The trees that are handed out are those of the sources. -/
theorem tree_obeys_parsed (source : SourceId) :
    ((host : Host Desk C).tree source).Obeys parsedTerms.fit
      fun _ r _ => ∀ t, r = .ok t → t.Parsed := by
  intro w hfit
  refine Action.ensures_bind.2 (findSource_settled (fun s hs => ?_) fun e => ?_)
  · refine (ofExcept_ensures _).2 ?_
    cases htree : s.currentTree with
    | error e => exact ⟨w.host, w.client, rfl, hfit, fun _ h => by cases h⟩
    | ok t =>
      refine ⟨w.host, w.client, rfl, hfit, ?_⟩
      rintro _ ⟨⟩
      exact hfit.2 _ (List.mem_map_of_mem (List.mem_of_getElem? hs)) t
        (SourceFile.tree_of_currentTree htree)
  · exact ⟨w.host, w.client, rfl, hfit, fun _ h => by cases h⟩

/-- All calls of the host keep to the terms. -/
theorem host_honours_parsed : (host : Host Desk C).Honours parsedTerms where
  tree := tree_obeys_parsed
  subscribe _ event callback := (leaves_subscribe footing_unlistened event callback).obeys_parsed
  unsubscribe sub := (leaves_unsubscribe footing_unlistened sub).obeys_parsed
  isAvailable _ := (leaves_findSource.bind fun _ => leaves_pure _).obeys_parsed
  sourceName _ := (leaves_findSource.bind fun _ => leaves_pure _).obeys_parsed
  createView _ := (leaves_host.bind fun _ =>
    (leaves_modifyHost (by exact fun _ => rfl)).bind fun _ => leaves_pure _).obeys_parsed
  showLines _ _ := ((leaves_modifyHost (by exact fun _ => rfl)).bind fun _ =>
    (leaves_host.bind fun _ => leaves_pure _).bind fun _ => write_leaves_footing _).obeys_parsed
  destroyView _ := ((leaves_modifyHost (by exact fun _ => rfl)).bind fun _ =>
    (leaves_host.bind fun _ => leaves_pure _).bind fun _ => write_leaves_footing _).obeys_parsed
  focus _ span highlight := (focus_leaves_footing span highlight).obeys_parsed
  log message := by
    intro w hfit
    refine log_ensures hfit.1 message fun messages => ?_
    exact ⟨_, w.client, rfl, fit_of_footing rfl hfit, rfl, trivial⟩

end

end Desk

/-! ## Operations on sessions -/

section

variable {C : Type} {w w' : World Desk C} {id : SessionId} {s : Session} {b : Nat}
  {binding : Binding} {r : Except Failure Unit}

/-- What the sessions show, or have shown, are lines of trees of texts. -/
def World.Rendered (w : World Desk C) : Prop := ∀ s ∈ w.sessions, s.Rendered

/-- Each session shows lines of texts. -/
theorem World.Rendered.at (hw : w.Rendered) (hs : w.sessions[id]? = some s) : s.Rendered :=
  hw s (List.mem_of_getElem? hs)

/-- The session has been changed, and the others have not. -/
theorem World.Rendered.changed (hw : w.Rendered) (hs : w.sessions[id]? = some s)
    {f : Session → Session} (hf : (f s).Rendered) : (w.modifySession id f).Rendered := by
  intro t ht
  obtain ⟨i, hi⟩ := List.mem_iff_getElem?.1 ht
  rw [World.getElem?_modifySession] at hi
  split at hi
  case isTrue heq =>
    rw [← heq, hs, Option.map_some] at hi
    cases hi
    exact hf
  case isFalse => exact hw.at hi

/-- A view is filled with lines of a text. -/
theorem Desk.shows_of_renders {options : Options} {source : SourceId} {view : ViewId}
    {h h' : Desk} {lines : List ViewLine}
    (renders : Desk.parsedTerms.Renders source options.navigation view h (.ok lines) h') :
    Session.Shows options lines := by
  cases renders with
  | shown call shows => exact ⟨_, call _ rfl, rfl⟩

/-- Refreshing a session keeps to lines of texts. -/
theorem Session.Refreshes.rendered (does : Session.Refreshes Desk.parsedTerms w id s b binding r w')
    (hs : w.sessions[id]? = some s) (hw : w.Rendered) : w'.Rendered := by
  have hshowing : ∀ {lines}, Session.Shows s.options lines →
      (w.modifySession id (Session.showing b lines)).Rendered := fun hlines =>
    hw.changed hs ((hw.at hs).modify b fun _ _ => hlines)
  cases does with
  | unrendered renders => exact hw
  | unnamed renders name => exact hshowing (Desk.shows_of_renders renders)
  | done renders name logs => exact hshowing (Desk.shows_of_renders renders)

/-- Ending a session keeps to lines of texts. -/
theorem Session.Finishes.rendered {reason : EndReason}
    (does : Session.Finishes Desk.parsedTerms w id s b binding reason r w')
    (hs : w.sessions[id]? = some s) (hw : w.Rendered) : w'.Rendered := by
  have hkeeping : ∀ left, (s.keeping b left).Rendered := fun _ => (hw.at hs).modify b fun _ h => h
  have hended : (w.modifySession id fun s => (s.keeping b []).ended reason).Rendered :=
    hw.changed hs (hkeeping [])
  cases does with
  | unnamed name => exact hw
  | interrupted name ends => exact hw.changed hs (hkeeping _)
  | viewLeft name ends view => exact hended
  | done name ends view logs => exact hended

/-- Enabling a session keeps to lines of texts. -/
theorem Session.Enables.rendered (does : Session.Enables Desk.parsedTerms w id s r w')
    (hs : w.sessions[id]? = some s) (hw : w.Rendered) : w'.Rendered := by
  cases does with
  | unnamed name => exact hw
  | noView name view => exact hw
  | undone name makes binds tidies clears => exact hw
  | done name makes binds logs =>
    cases binds with
    | bound renders first second =>
      exact hw.changed hs ((hw.at hs).bound (Desk.shows_of_renders renders))

/-- A new session shows nothing yet. -/
theorem World.Rendered.withSession (hw : w.Rendered) (hnew : s.bindings = []) :
    (w.withSession s).Rendered := by
  intro t ht
  rcases List.mem_append.1 ht with hold | hlast
  · exact hw t hold
  · rw [List.mem_singleton.1 hlast]
    intro binding hbinding
    rw [hnew] at hbinding
    cases hbinding

/-- Every deed keeps to lines of texts. -/
theorem Deed.Does.rendered {d : Deed} (does : Deed.Does Desk.parsedTerms w d r w')
    (hw : w.Rendered) : w'.Rendered := by
  cases does with
  | tends tends =>
    cases tends with
    | looks looked =>
      obtain ⟨h, c, rfl, -, -⟩ := looked
      exact hw
    | refreshes session current bound does => exact does.rendered session hw
    | finishes session current bound does => exact does.rendered session hw
  | creates => exact hw.withSession rfl
  | enables session idle does => exact does.rendered session hw
  | opens does =>
    exact does.rendered List.getElem?_concat_length (hw.withSession rfl)

/-! ## Moves at a desk -/

/-- Neither the output nor the journal fails, and all trees and lines are those of texts. -/
structure World.Sourced (w : World Desk C) : Prop where
  fit : Desk.parsedTerms.fit w.host
  rendered : w.Rendered

/-- If all trees and lines are those of texts before, they are so afterwards. -/
def World.KeepsSourced (w w' : World Desk C) : Prop := w.Sourced → w'.Sourced

/-- What keeps to trees and lines of texts may be done one after another. -/
theorem World.passage_keepsSourced : World.Passage (World.KeepsSourced (C := C)) where
  refl _ := id
  trans first second := second ∘ first

/-- Every deed of a session keeps to trees and lines of texts. -/
theorem Deed.run_keepsSourced (d : Deed) :
    (d.run (Desk.host : Host Desk C)).Stays World.KeepsSourced := by
  refine Action.stays_iff.2 fun w hw => ?_
  have hperforms := d.run_does Desk.host_honours_parsed hw.fit
  have hboth : ∀ {r w'}, Desk.parsedTerms.fit w'.host ∧ Deed.Does Desk.parsedTerms w d r w' →
      w'.Sourced := fun h => ⟨h.1, h.2.rendered hw.rendered⟩
  exact Action.Ensures.outcome (P := fun _ w' => w'.Sourced)
    (Action.Ensures.mono hperforms (fun _ _ h => hboth h) (fun _ _ h => hboth h))

/-- Every move of sessions keeps to trees and lines of texts. -/
theorem Move.run_keepsSourced (m : Move) :
    (m.run (Desk.host : Host Desk C)).Stays World.KeepsSourced := by
  intro w
  unfold Action.Ensures
  rw [m.run_eq]
  exact World.passage_keepsSourced.forM Deed.run_keepsSourced (m.deeds w) w

namespace Desk

variable {deliver : Callback → Action Desk C Unit} {source : SourceId}

open World

/-- Whatever leaves the footing keeps to trees and lines of texts. -/
theorem Leaves.keepsSourced {α : Type} {a : Action Desk C α} (ha : Leaves footing a) :
    a.Stays KeepsSourced := by
  intro w
  have hkept : ∀ {w'}, Left footing w w' → w.KeepsSourced w' := by
    rintro _ ⟨d, c, rfl, hd⟩ hw
    exact ⟨fit_of_footing hd hw.fit, hw.rendered⟩
  exact (ha w).mono (fun _ _ => hkept) (fun _ _ => hkept)

/-- A source takes its tree from its new text. -/
theorem update_keepsSourced (text : String) (saved : Bool) :
    (modifySource source (·.update text saved) : Action Desk C Unit).Stays KeepsSourced := by
  intro w hw
  refine ⟨⟨hw.fit.1, ?_⟩, hw.rendered⟩
  intro tree htree t ht
  obtain ⟨s', hs', rfl⟩ := List.mem_map.1 htree
  obtain ⟨i, hi⟩ := List.mem_iff_getElem?.1 hs'
  rw [List.getElem?_modify] at hi
  obtain ⟨s, hs, rfl⟩ := Option.map_eq_some_iff.1 hi
  split at ht
  · cases ht
    exact ⟨text, rfl⟩
  · exact hw.fit.2 _ (List.mem_map_of_mem (List.mem_of_getElem? hs)) t ht

/-- A source that is added has no tree yet. -/
theorem addSource_keepsSourced (path : String) :
    (addSource path : Action Desk C SourceId).Stays KeepsSourced := by
  intro w hw
  refine ⟨⟨hw.fit.1, ?_⟩, hw.rendered⟩
  intro tree htree t ht
  obtain ⟨s, hs, rfl⟩ := List.mem_map.1 htree
  rcases List.mem_append.1 hs with hold | hnew
  · exact hw.fit.2 _ (List.mem_map_of_mem hold) t ht
  · rw [List.mem_singleton.1 hnew] at ht
    cases ht

/-! ## Announcements -/

/-- Whoever listens beside the sessions does not break it that trees and lines are those of
texts. -/
def Honest (deliver : Callback → Action Desk C Unit) : Prop :=
  ∀ listener, (deliver (.client listener)).Stays KeepsSourced

section

variable (hrelays : Relays deliver) (hhonest : Honest deliver)

include hrelays hhonest

/-- Calling someone keeps to trees and lines of texts, if clients are honest. -/
theorem deliver_keepsSourced (callback : Callback) : (deliver callback).Stays KeepsSourced := by
  cases callback with
  | session id event =>
    rw [hrelays]
    exact Deed.run_keepsSourced (.call (.notify id event))
  | client listener => exact hhonest listener

/-- Announcing an event keeps to trees and lines of texts. -/
theorem announce_keepsSourced (source : SourceId) (event : Notice) :
    (announce deliver source event).Stays KeepsSourced := by
  refine passage_keepsSourced.bind (Leaves.keepsSourced leaves_findSource) fun s => ?_
  refine passage_keepsSourced.forM (fun sub => ?_) _
  refine passage_keepsSourced.bind passage_keepsSourced.readHost fun d => ?_
  cases d.subscriptions[sub]? with
  | none => exact passage_keepsSourced.pure _
  | some s => exact deliver_keepsSourced hrelays hhonest s.callback

/-! ## Operations -/

/-- A commit keeps to trees and lines of texts. -/
theorem commit_keepsSourced (source : SourceId) (text message : String) :
    (do
      modifySource source (·.update text true)
      reportFaults source
      log message
      announce deliver source .commit : Action Desk C Unit).Stays KeepsSourced := by
  refine passage_keepsSourced.bind (update_keepsSourced text true) fun _ => ?_
  refine passage_keepsSourced.bind
    (Leaves.keepsSourced (leaves_reportFaults fun _ _ => rfl)) fun _ => ?_
  refine passage_keepsSourced.bind (log_leaves_footing message).keepsSourced fun _ => ?_
  exact announce_keepsSourced hrelays hhonest source .commit

/-- Storing a text keeps to trees and lines of texts. -/
theorem store_keepsSourced (source : SourceId) :
    (store deliver source).Stays KeepsSourced := by
  refine passage_keepsSourced.bind (Leaves.keepsSourced leaves_findSource) fun s => ?_
  refine passage_keepsSourced.bind
    (Leaves.keepsSourced (leaves_writeFile (fun _ _ => rfl) _ _)) fun _ => ?_
  exact commit_keepsSourced hrelays hhonest source s.text _

/-- Saving keeps to trees and lines of texts. -/
theorem save_keepsSourced (source : SourceId) (text : Option String) :
    (save deliver source text).Stays KeepsSourced := by
  refine passage_keepsSourced.bind requireOpen_leaves_footing.keepsSourced fun _ => ?_
  cases text with
  | none => exact store_keepsSourced hrelays hhonest source
  | some text =>
    refine passage_keepsSourced.bind (update_keepsSourced text false) fun _ => ?_
    exact store_keepsSourced hrelays hhonest source

/-- Closing a source keeps to trees and lines of texts. -/
theorem close_keepsSourced (source : SourceId) :
    (close deliver source).Stays KeepsSourced := by
  have hshut : Leaves footing (shut source : Action Desk C Unit) :=
    (modifySource_leaves_footing (by exact fun _ => rfl)).bind fun _ =>
      (leaves_replaceWatcher footing_unwatched none).bind fun _ =>
        modifySource_leaves_footing (by exact fun _ => rfl)
  refine passage_keepsSourced.bind (Leaves.keepsSourced leaves_findSource) fun s => ?_
  split
  · exact passage_keepsSourced.pure _
  refine passage_keepsSourced.bind hshut.keepsSourced fun _ => ?_
  refine passage_keepsSourced.bind (log_leaves_footing _).keepsSourced fun _ => ?_
  refine passage_keepsSourced.bind (announce_keepsSourced hrelays hhonest source .destroy)
    fun _ => ?_
  exact (modifySource_leaves_footing (by exact fun _ => rfl)).keepsSourced

/-- Reading a file again keeps to trees and lines of texts. -/
theorem reload_keepsSourced (source : SourceId) :
    (reload deliver source).Stays KeepsSourced := by
  refine passage_keepsSourced.bind (Leaves.keepsSourced leaves_findSource) fun s => ?_
  refine passage_keepsSourced.bind passage_keepsSourced.readHost fun d => ?_
  dsimp only
  cases d.disk.readText (d.disk.resolve s.path) with
  | error e =>
    dsimp only
    split
    · exact close_keepsSourced hrelays hhonest source
    · exact (log_leaves_footing _).keepsSourced
  | ok text =>
    dsimp only
    split
    · exact passage_keepsSourced.pure _
    · exact commit_keepsSourced hrelays hhonest source text _

/-- A report about a file keeps to trees and lines of texts. -/
theorem fileEvent_keepsSourced (source : SourceId) (renamed : Bool) :
    (fileEvent deliver source renamed).Stays KeepsSourced := by
  refine passage_keepsSourced.bind (Leaves.keepsSourced leaves_findSource) fun s => ?_
  split
  · exact passage_keepsSourced.pure _
  split
  · refine passage_keepsSourced.bind
      (Passage.attempt (leaves_watchSource footing_unwatched).keepsSourced) fun watched => ?_
    cases watched with
    | ok _ => exact reload_keepsSourced hrelays hhonest source
    | error e =>
      refine passage_keepsSourced.bind (log_leaves_footing _).keepsSourced fun _ => ?_
      exact close_keepsSourced hrelays hhonest source
  · exact reload_keepsSourced hrelays hhonest source

/-- A watcher that fails keeps to trees and lines of texts. -/
theorem watcherFailed_keepsSourced (source : SourceId) (message : String) :
    (watcherFailed deliver source message).Stays KeepsSourced := by
  refine passage_keepsSourced.bind (Leaves.keepsSourced leaves_findSource) fun s => ?_
  refine passage_keepsSourced.bind (log_leaves_footing _).keepsSourced fun _ => ?_
  exact close_keepsSourced hrelays hhonest source

end

/-- Opening a file keeps to trees and lines of texts. -/
theorem openFile_keepsSourced (name : String) :
    (openFile name : Action Desk C SourceId).Stays KeepsSourced := by
  intro w
  refine openFile_ensures name (fun _ => passage_keepsSourced.refl w) fun text _ => ?_
  have hopened : ∀ id, Leaves footing (do
      log ("Opened " ++ (← findSource id).name ++ ".")
      return id : Action Desk C SourceId) := fun _ =>
    leaves_findSource.bind fun _ => (log_leaves_footing _).bind fun _ => leaves_pure _
  refine passage_keepsSourced.bind (addSource_keepsSourced _) (fun id => ?_) w
  refine passage_keepsSourced.bind (update_keepsSourced text true) fun _ => ?_
  refine passage_keepsSourced.bind
    (Leaves.keepsSourced (leaves_reportFaults fun _ _ => rfl)) fun _ => ?_
  cases w.host.watching with
  | false => exact (hopened id).keepsSourced
  | true =>
    exact ((leaves_watchSource footing_unwatched).bind fun _ => hopened id).keepsSourced

end Desk

/-- What a watcher says keeps to trees and lines of texts. -/
theorem DeskMove.fromWatcher_keepsSourced (watcher : WatcherId)
    {say : SourceId → Action Desk C Unit}
    (hsay : ∀ source, (say source).Stays World.KeepsSourced) :
    (fromWatcher watcher say).Stays World.KeepsSourced := by
  refine World.passage_keepsSourced.bind World.passage_keepsSourced.readHost fun d => ?_
  cases d.watchers[watcher]? with
  | none => exact World.passage_keepsSourced.pure _
  | some t => exact hsay t.source

/-- Whatever happens at a desk, and however it ends, trees and lines go on being those of texts. -/
theorem DeskMove.run_keepsSourced {deliver : Callback → Action Desk C Unit}
    (hrelays : Desk.Relays deliver) (hhonest : Desk.Honest deliver) (m : DeskMove) :
    (m.run deliver).Stays World.KeepsSourced := by
  have hdisk : ∀ (w : World Desk C) (disk : Disk),
      w.KeepsSourced (w.beside { w.host with disk := disk } w.client) :=
    fun _ _ hw => ⟨Desk.fit_of_footing rfl hw.fit, hw.rendered⟩
  cases m with
  | openFile name =>
    exact World.passage_keepsSourced.bind (Desk.openFile_keepsSourced name) fun _ =>
      World.passage_keepsSourced.pure _
  | edit source text =>
    exact World.passage_keepsSourced.bind Desk.requireOpen_leaves_footing.keepsSourced fun _ =>
      Desk.update_keepsSourced text false
  | save source text => exact Desk.save_keepsSourced hrelays hhonest source text
  | close source => exact Desk.close_keepsSourced hrelays hhonest source
  | writeFile path bytes => exact fun w => hdisk w _
  | removeFile path => exact fun w => hdisk w _
  | setObstacles obstacles => exact fun w => hdisk w _
  | setShortages shortages => exact fun w => hdisk w _
  | report watcher renamed =>
    exact fromWatcher_keepsSourced watcher fun source =>
      Desk.fileEvent_keepsSourced hrelays hhonest source renamed
  | breakDown watcher message =>
    exact fromWatcher_keepsSourced watcher fun source =>
      Desk.watcherFailed_keepsSourced hrelays hhonest source message
  | listen source event listener =>
    exact ((Desk.leaves_subscribe Desk.footing_unlistened event (.client listener)).bind fun _ =>
      Desk.leaves_pure _).keepsSourced
  | unlisten sub => exact (Desk.leaves_unsubscribe Desk.footing_unlistened sub).keepsSourced
  | session m => exact m.run_keepsSourced

/-- On a desk where nothing has been made yet there are neither trees nor lines. -/
theorem World.Untouched.sourced (hw : w.Untouched) (hreliable : w.host.Reliable) :
    w.Sourced where
  fit := by
    refine ⟨hreliable, ?_⟩
    intro tree htree
    rw [hw.sources] at htree
    cases htree
  rendered := by
    intro s hs
    rw [hw.sessions] at hs
    cases hs

end

end TreeInspector
