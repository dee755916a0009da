import TreeInspector.Desk.Watch
import TreeInspector.Proofs.Session.Books

/-!
# The gist of a desk

What becomes of views depends on little of a desk: the disk, the texts and the tree of each source,
whether it is closed and who listens to it, the subscriptions, and the panes. The gist of a desk is
that much of it. Every call of the desk as a host is described by what it does to the gist, as long
as the output takes all writes and the journal all messages.
-/

set_option autoImplicit false

namespace TreeInspector

/-- What a source has to show. -/
structure Page where
  path : String
  text : String
  saved : String
  tree : Option ParseTree
  closed : Bool

/-- What matters of a source. -/
structure SourceGist extends Page where
  listeners : Notice → List SubscriptionId

/-- What matters of a desk. -/
structure Gist where
  disk : Disk
  source? : SourceId → Option SourceGist
  subscriptions : List Subscription
  panes : List Pane

/-- The tree of a source that is open. -/
def Page.currentTree? (p : Page) : Option ParseTree := if p.closed then none else p.tree

/-- The page with another text, which is saved or not. -/
def Page.retexted (text : String) (saved : Bool) (p : Page) : Page :=
  { p with
    text := text
    tree := some (Document.analyze Document.lenient text).root
    saved := if saved then text else p.saved }

/-- The page of a source that has been closed. -/
def Page.shut (p : Page) : Page := { p with closed := true }

namespace SourceGist

/-- The source with the subscriptions to an event changed. -/
def listening (event : Notice) (change : List SubscriptionId → List SubscriptionId)
    (f : SourceGist) : SourceGist :=
  { f with listeners := Function.update f.listeners event (change (f.listeners event)) }

/-- Changing the subscriptions to one event leaves those to the other. -/
theorem listeners_listening (event other : Notice)
    (change : List SubscriptionId → List SubscriptionId) (f : SourceGist) :
    (f.listening event change).listeners other =
      if other = event then change (f.listeners other) else f.listeners other := by
  show Function.update f.listeners event (change (f.listeners event)) other = _
  rw [Function.update_apply]
  by_cases hother : other = event
  · rw [if_pos hother, if_pos hother, hother]
  · rw [if_neg hother, if_neg hother]

/-- The source with another page. -/
def paged (change : Page → Page) (f : SourceGist) : SourceGist :=
  { f with toPage := change f.toPage }

end SourceGist

namespace Gist

/-- The page of a source. -/
def page? (g : Gist) (id : SourceId) : Option Page := (g.source? id).map SourceGist.toPage

/-- The gist with a source changed. -/
def modifySource (id : SourceId) (change : SourceGist → SourceGist) (g : Gist) : Gist :=
  { g with source? := Function.update g.source? id ((g.source? id).map change) }

/-- The gist with one more source. -/
def added (id : SourceId) (f : SourceGist) (g : Gist) : Gist :=
  { g with source? := Function.update g.source? id (some f) }

/-- The gist after someone has subscribed to an event of a source. -/
def subscribed (source : SourceId) (event : Notice) (callback : Callback) (g : Gist) : Gist :=
  { g.modifySource source (·.listening event (· ++ [g.subscriptions.length])) with
    subscriptions := g.subscriptions ++ [{ source, event, callback }] }

/-- The gist after a subscription in force has been ended. -/
def unsubscribed (sub : SubscriptionId) (s : Subscription) (g : Gist) : Gist :=
  { g.modifySource s.source (·.listening s.event (·.filter (· ≠ sub))) with
    subscriptions := g.subscriptions.modify sub ({ · with ended := true }) }

/-- The gist with one more pane, which is empty. -/
def opened (title : String) (g : Gist) : Gist :=
  { g with panes := g.panes ++ [{ title := title }] }

/-- The gist with lines shown in a pane. -/
def showing (view : ViewId) (lines : List ViewLine) (g : Gist) : Gist :=
  { g with panes := g.panes.modify view ({ · with lines := Desk.paneRows lines }) }

/-- The gist after a pane has been ended. -/
def closed (view : ViewId) (g : Gist) : Gist :=
  { g with panes := g.panes.modify view ({ · with disposed := true }) }

/-- The views and subscriptions that have not been ended. -/
def books (g : Gist) : Books where
  views := Books.shownOf Pane.disposed g.panes
  subscribers := Books.serving g.subscriptions

/-- A change that makes no difference to the source makes none at all. -/
theorem modifySource_same {g : Gist} {id : SourceId} {change : SourceGist → SourceGist}
    (h : ∀ f, g.source? id = some f → change f = f) : g.modifySource id change = g := by
  have hsame : (g.source? id).map change = g.source? id := by
    cases hf : g.source? id with
    | none => rfl
    | some f => rw [Option.map_some, h f hf]
  unfold modifySource
  rw [hsame, Function.update_eq_self]

/-- Changing a source right after adding it is adding the changed one. -/
theorem modifySource_added (id : SourceId) (f : SourceGist) (change : SourceGist → SourceGist)
    (g : Gist) : (g.added id f).modifySource id change = g.added id (change f) := by
  simp only [modifySource, added, Function.update_self, Option.map_some, Function.update_idem]

/-- Changing a source changes what is found under its number and nothing else. -/
theorem source?_modifySource (id other : SourceId) (change : SourceGist → SourceGist) (g : Gist) :
    (g.modifySource id change).source? other =
      if other = id then (g.source? other).map change else g.source? other := by
  show Function.update g.source? id ((g.source? id).map change) other = _
  rw [Function.update_apply]
  by_cases hother : other = id
  · rw [if_pos hother, if_pos hother, hother]
  · rw [if_neg hother, if_neg hother]

/-- A change of a source shows on its page and on no other. -/
theorem page?_modifySource {change : SourceGist → SourceGist} {change' : Page → Page}
    (h : ∀ f, (change f).toPage = change' f.toPage) (id : SourceId) (g : Gist) :
    (g.modifySource id change).page? =
      Function.update g.page? id ((g.page? id).map change') := by
  funext other
  unfold page?
  rw [source?_modifySource, Function.update_apply]
  by_cases hother : other = id
  · rw [if_pos hother, if_pos hother, hother, Option.map_map, Option.map_map]
    exact congrArg (Option.map · (g.source? id)) (funext h)
  · rw [if_neg hother, if_neg hother]

/-- A change of a page shows on it and on no other. -/
theorem page?_paged (change : Page → Page) (id : SourceId) (g : Gist) :
    (g.modifySource id (·.paged change)).page? =
      Function.update g.page? id ((g.page? id).map change) := by
  have hpaged : ∀ f : SourceGist, (f.paged change).toPage = change f.toPage := fun _ => rfl
  exact page?_modifySource hpaged id g

/-- A source that is added brings its page. -/
theorem page?_added (id : SourceId) (f : SourceGist) (g : Gist) :
    (g.added id f).page? = Function.update g.page? id (some f.toPage) := by
  funext other
  show (Function.update g.source? id (some f) other).map _ = _
  rw [Function.update_apply, Function.update_apply]
  by_cases hother : other = id
  · rw [if_pos hother, if_pos hother, Option.map_some]
  · rw [if_neg hother, if_neg hother]
    rfl

/-- Who listens does not matter to the pages. -/
theorem page?_listening (source : SourceId) (event : Notice)
    (change : List SubscriptionId → List SubscriptionId) (g : Gist) :
    (g.modifySource source (·.listening event change)).page? = g.page? := by
  have hsame : ∀ f : SourceGist, (f.listening event change).toPage = id f.toPage := fun _ => rfl
  rw [page?_modifySource hsame, Option.map_id]
  exact Function.update_eq_self source g.page?

/-- Subscribing changes no page. -/
theorem page?_subscribed (source : SourceId) (event : Notice) (callback : Callback) (g : Gist) :
    (g.subscribed source event callback).page? = g.page? :=
  page?_listening source event _ g

/-- Ending a subscription changes no page. -/
theorem page?_unsubscribed (sub : SubscriptionId) (s : Subscription) (g : Gist) :
    (g.unsubscribed sub s).page? = g.page? :=
  page?_listening s.source s.event _ g

end Gist

/-- A source with its first text, to which nobody listens yet. -/
def SourceGist.first (path text : String) : SourceGist :=
  (⟨⟨path, "", "", none, false⟩, fun _ => []⟩ : SourceGist).paged (·.retexted text true)

/-- What matters of a source of the desk. -/
def SourceFile.gist (s : SourceFile) : SourceGist :=
  ⟨⟨s.path, s.text, s.saved, s.tree, s.closed⟩, s.listeners⟩

namespace SourceFile

/-- Changing the listeners of a source changes the same in its gist. -/
theorem gist_modifyListeners (event : Notice) (change : List SubscriptionId → List SubscriptionId)
    (s : SourceFile) : (s.modifyListeners event change).gist = s.gist.listening event change := by
  unfold gist SourceGist.listening
  congr 1
  · cases event with
    | commit => rfl
    | destroy => rfl
  · funext other
    cases event with
    | commit => cases other <;> rfl
    | destroy => cases other <;> rfl

/-- Taking up a text changes the page in the gist of the source. -/
theorem gist_update (text : String) (saved : Bool) (s : SourceFile) :
    (s.update text saved).gist = s.gist.paged (·.retexted text saved) := rfl

/-- Forgetting the listeners of a source changes the same in its gist. -/
theorem gist_forgetting (s : SourceFile) :
    ({ s with commitListeners := [], destroyListeners := [] } : SourceFile).gist =
      { s.gist with listeners := fun _ => [] } := by
  unfold gist
  congr 1
  funext event
  cases event <;> rfl

/-- The tree that a source gives can be told from its gist. -/
theorem toOption_currentTree (s : SourceFile) : s.currentTree.toOption = s.gist.currentTree? := by
  unfold currentTree Page.currentTree? gist
  cases s.closed with
  | true => rfl
  | false =>
    cases s.tree with
    | none => rfl
    | some tree => rfl

end SourceFile

/-- The world with another disk. -/
def World.onDisk {C : Type} (disk : Disk) (w : World Desk C) : World Desk C :=
  w.beside { w.host with disk := disk } w.client

namespace Desk

/-- What matters of the desk. -/
def gist (d : Desk) : Gist where
  disk := d.disk
  source? id := d.sources[id]?.map SourceFile.gist
  subscriptions := d.subscriptions
  panes := d.panes

/-- The output takes all writes and the journal all messages. -/
def Reliable (d : Desk) : Prop :=
  d.output.failing = none ∧ ∀ message, ∃ entry, d.journal.entry? message = .ok entry

/-- Changing a source changes the same source in the gist of the desk. -/
theorem gist_modifySource {change : SourceFile → SourceFile} {change' : SourceGist → SourceGist}
    (h : ∀ s, (change s).gist = change' s.gist) (id : SourceId) (d : Desk) :
    ({ d with sources := d.sources.modify id change } : Desk).gist =
      d.gist.modifySource id change' := by
  unfold gist Gist.modifySource
  congr 1
  funext other
  rw [List.getElem?_modify, Function.update_apply]
  by_cases hother : other = id
  · subst hother
    cases hs : d.sources[other]? with
    | none => simp [hs]
    | some s => simp [hs, h]
  · rw [if_neg hother]
    simp [Ne.symm hother]

/-- A change of a source that does not matter leaves the gist as it is. -/
theorem gist_modifySource_same {change : SourceFile → SourceFile}
    (h : ∀ s, (change s).gist = s.gist) (source : SourceId) (d : Desk) :
    ({ d with sources := d.sources.modify source change } : Desk).gist = d.gist := by
  have hsame : ∀ s, (change s).gist = id s.gist := h
  exact (gist_modifySource hsame _ d).trans (Gist.modifySource_same fun _ _ => rfl)

/-- Adding a source adds its gist. -/
theorem gist_addSource (path : String) (d : Desk) :
    ({ d with sources := d.sources ++ [{ path := path }] } : Desk).gist =
      d.gist.added d.sources.length ⟨⟨path, "", "", none, false⟩, fun _ => []⟩ := by
  unfold gist Gist.added
  congr 1
  funext other
  rw [List.getElem?_append, Function.update_apply]
  by_cases hlt : other < d.sources.length
  · rw [if_pos hlt, if_neg (Nat.ne_of_lt hlt)]
  · rw [if_neg hlt]
    by_cases heq : other = d.sources.length
    · subst heq
      have hlisteners : (SourceFile.listeners { path := path }) = fun _ => [] := by
        funext event
        cases event <;> rfl
      simp [SourceFile.gist, hlisteners]
    · have hbeyond : d.sources.length < other :=
        Nat.lt_of_le_of_ne (Nat.le_of_not_lt hlt) (Ne.symm heq)
      rw [if_neg heq, List.getElem?_eq_none (Nat.sub_pos_of_lt hbeyond)]
      simp [List.getElem?_eq_none (Nat.le_of_lt hbeyond)]

/-- A source is added and takes its first text. -/
theorem gist_addSource_update (path text : String) (d : Desk) :
    ({ d with
      sources := (d.sources ++ [({ path := path } : SourceFile)]).modify d.sources.length
        (·.update text true) } : Desk).gist =
      d.gist.added d.sources.length (.first path text) := by
  refine (gist_modifySource (SourceFile.gist_update text true) d.sources.length
    { d with sources := d.sources ++ [{ path := path }] }).trans ?_
  rw [gist_addSource, Gist.modifySource_added]
  rfl

/-- The next source has no number yet. -/
theorem gist_source?_length (d : Desk) : d.gist.source? d.sources.length = none := by
  unfold gist
  simp only [List.getElem?_eq_none (Nat.le_refl _), Option.map_none]

/-! ## The desk as a host -/

/-- What each call does to the gist of the desk. -/
def terms : Terms Desk where
  fit := Reliable
  tree source h r h' := h'.gist = h.gist ∧
    r.toOption = (h.gist.page? source).bind Page.currentTree?
  subscribe source event callback h r h' := r = .ok h.gist.subscriptions.length ∧
    h'.gist = h.gist.subscribed source event callback
  unsubscribe sub h r h' := r = .ok () ∧
    ((∃ s, h.gist.subscriptions[sub]? = some s ∧ s.ended = false ∧
      h'.gist = h.gist.unsubscribed sub s) ∨
      Books.serving h.gist.subscriptions sub = none ∧ h'.gist = h.gist)
  isAvailable _ h _ h' := h'.gist = h.gist
  sourceName source h r h' := h'.gist = h.gist ∧
    r.toOption.isSome = (h.gist.page? source).isSome
  createView title h r h' := r = .ok h.gist.panes.length ∧ h'.gist = h.gist.opened title
  showLines view lines h r h' := r = .ok () ∧ h'.gist = h.gist.showing view lines
  destroyView view h r h' := r = .ok () ∧ h'.gist = h.gist.closed view
  focus _ _ _ h _ h' := h'.gist = h.gist
  log _ h h' := h'.gist = h.gist

/-- What the calls do to the gist is what they are to do to the books. -/
theorem terms_keep_books : terms.Keeps fun d => d.gist.books where
  tree h := congrArg Gist.books h.1
  subscribed := by
    rintro source event callback h sub h' ⟨hsub, hgist⟩
    cases hsub
    refine ⟨Books.serving_length _, ?_⟩
    show h'.gist.books = _
    rw [hgist]
    exact congrArg (Books.mk _) (Books.serving_append rfl _)
  notSubscribed := by
    rintro source event callback h e h' ⟨hnever, -⟩
    cases hnever
  unsubscribe := by
    rintro sub h r h' ⟨rfl, ⟨s, hs, hended, hgist⟩ | ⟨hnone, hgist⟩⟩
    · refine ⟨rfl, ?_⟩
      show h'.gist.books = _
      rw [hgist]
      exact congrArg (Books.mk _) (Books.serving_ended _ _)
    · refine ⟨rfl, ?_⟩
      have hsame : Function.update (Books.serving h.gist.subscriptions) sub none =
          Books.serving h.gist.subscriptions := by
        rw [← hnone, Function.update_eq_self]
      show h'.gist.books = _
      rw [hgist]
      exact congrArg (Books.mk _) hsame.symm
  isAvailable h := congrArg Gist.books h
  sourceName h := congrArg Gist.books h.1
  created := by
    rintro title h view h' ⟨hview, hgist⟩
    cases hview
    refine ⟨Books.length_notMem_shownOf _, ?_⟩
    show h'.gist.books = _
    rw [hgist]
    exact congrArg (Books.mk · _) (Books.shownOf_append rfl _)
  notCreated := by
    rintro title h e h' ⟨hnever, -⟩
    cases hnever
  showLines := by
    rintro view lines h r h' ⟨rfl, hgist⟩
    have hshown : Books.shownOf Pane.disposed (h.gist.panes.modify view
        ({ · with lines := paneRows lines })) = h.gist.books.views :=
      Books.shownOf_same (by exact fun _ => rfl) _ _
    show h'.gist.books = _
    rw [hgist]
    exact congrArg (Books.mk · _) hshown
  destroyView := by
    rintro view h r h' ⟨rfl, hgist⟩
    refine ⟨rfl, ?_⟩
    show h'.gist.books = _
    rw [hgist]
    exact congrArg (Books.mk · _) (Books.shownOf_ended (fun _ => rfl) _ _)
  focus h := congrArg Gist.books h
  log h := congrArg Gist.books h

section

variable {C : Type} {w : World Desk C}

/-- A source that is there is found, and nothing happens. -/
theorem findSource_ensures {id : SourceId} {s : SourceFile} (hs : w.host.sources[id]? = some s)
    {Q : SourceFile → World Desk C → Prop} {E : Failure → World Desk C → Prop} :
    (findSource id).Ensures w Q E ↔ Q s w := by
  unfold findSource
  simp only [Action.ensures_bind, Action.ensures_host, hs, Action.ensures_pure]

/-- A source that is not there is not found, and nothing happens. -/
theorem findSource_of_none {id : SourceId} (hs : w.host.sources[id]? = none)
    {Q : SourceFile → World Desk C → Prop} {E : Failure → World Desk C → Prop} :
    (findSource id).Ensures w Q E ↔ E (.noSuch .source id) w := by
  unfold findSource
  simp only [Action.ensures_bind, Action.ensures_host, hs, Action.ensures_throw]

/-- Looking for a source that is there gives it. -/
theorem findSource_eq {id : SourceId} {s : SourceFile} (hs : w.host.sources[id]? = some s) :
    (findSource id : Action Desk C SourceFile) w = .ok s w := by
  unfold findSource
  refine (Action.bind_host _ w).trans ?_
  simp only [hs]
  rfl

/-- A source that is there and open is given. -/
theorem requireOpen_eq {id : SourceId} {s : SourceFile} (hs : w.host.sources[id]? = some s)
    (hopen : s.closed = false) : (requireOpen id : Action Desk C SourceFile) w = .ok s w := by
  unfold requireOpen
  rw [Action.bind_of_ok (findSource_eq hs), hopen]
  rfl

/-- A selection that can be shown is kept, and its rows are written at once. -/
theorem focus_of_report {id : SourceId} {s : SourceFile} (hs : w.host.sources[id]? = some s)
    (hopen : s.closed = false) {span : Span} {highlight : Bool} {rows : List String}
    (hrows : focusReport s.name (Text.units s.text) span highlight = .ok rows) :
    focus id span highlight w = write (String.join (rows.map (· ++ "\n"))) { w with
      host := { w.host with
        sources := w.host.sources.modify id
          ({ · with selection := some span, highlighted := highlight }) } } := by
  unfold focus
  rw [Action.bind_of_ok (requireOpen_eq hs hopen), hrows]
  rfl

/-- A source that is not there, or closed, is refused before anything happens. -/
theorem requireOpen_ensures {id : SourceId} {Q : SourceFile → World Desk C → Prop}
    {E : Failure → World Desk C → Prop}
    (hrefused : (∀ s, w.host.sources[id]? = some s → s.closed = true) → ∀ e, E e w)
    (hopen : ∀ s, w.host.sources[id]? = some s → s.closed = false → Q s w) :
    (requireOpen id).Ensures w Q E := by
  unfold requireOpen
  rw [Action.ensures_bind]
  cases hs : w.host.sources[id]? with
  | none =>
    rw [findSource_of_none hs]
    exact hrefused (by simp [hs]) _
  | some s =>
    rw [findSource_ensures hs]
    cases hclosed : s.closed with
    | true =>
      simp only [if_true]
      exact hrefused (by simp [hs, hclosed]) _
    | false => exact hopen s hs hclosed

/-- An outcome taken as an action changes nothing. -/
theorem ofExcept_ensures {α : Type} (r : Except Failure α) {Q : α → World Desk C → Prop}
    {E : Failure → World Desk C → Prop} :
    (Action.ofExcept r : Action Desk C α).Ensures w Q E ↔
      match r with
      | .ok x => Q x w
      | .error e => E e w := by
  cases r with
  | ok x => exact Iff.rfl
  | error e => exact Iff.rfl

/-- Writing a file changes the disk and nothing else, also if the write fails. -/
theorem writeFile_eq (path text : String) (w : World Desk C) :
    (writeFile path text : Action Desk C Unit) w =
      match w.host.disk.writeText (w.host.disk.resolve path) text with
      | (.ok x, disk) => .ok x (w.onDisk disk)
      | (.error e, disk) => .error e (w.onDisk disk) := by
  unfold writeFile
  rw [Action.bind_host]
  obtain ⟨result, disk⟩ := w.host.disk.writeText (w.host.disk.resolve path) text
  cases result with
  | ok x => rfl
  | error e => rfl

/-- Writing a file leaves what the disk is after the text was written to it, also if that fails. -/
theorem writeFile_ensures (path text : String) {Q : Unit → World Desk C → Prop}
    {E : Failure → World Desk C → Prop} :
    (writeFile path text).Ensures w Q E ↔
      match w.host.disk.writeText (w.host.disk.resolve path) text with
      | (.ok x, disk) => Q x (w.onDisk disk)
      | (.error e, disk) => E e (w.onDisk disk) := by
  unfold Action.Ensures
  rw [writeFile_eq]
  obtain ⟨result, disk⟩ := w.host.disk.writeText (w.host.disk.resolve path) text
  cases result with
  | ok x => exact Iff.rfl
  | error e => exact Iff.rfl

/-- A reliable desk writes without fail, and only its output changes. -/
theorem write_ensures (hreliable : w.host.Reliable) (text : String)
    {Q : Unit → World Desk C → Prop} {E : Failure → World Desk C → Prop}
    (hQ : ∀ output : Sink, output.failing = none →
      Q () (w.beside { w.host with output := output } w.client)) :
    (write text).Ensures w Q E := by
  have hwrite : w.host.output.write text = (.ok (), { w.host.output with
      writes := w.host.output.writes + 1, written := w.host.output.written ++ text }) := by
    unfold Sink.write
    simp [hreliable.1]
  unfold write
  simp only [Action.ensures_bind, Action.ensures_host, hwrite, Action.ensures_modifyHost]
  exact hQ _ hreliable.1

/-- A reliable desk logs without fail, and only its messages change. -/
theorem log_ensures (hreliable : w.host.Reliable) (message : String)
    {Q : Unit → World Desk C → Prop} {E : Failure → World Desk C → Prop}
    (hQ : ∀ messages, Q () (w.beside { w.host with messages := messages } w.client)) :
    (log message).Ensures w Q E := by
  obtain ⟨entry, hentry⟩ := hreliable.2 message
  unfold log
  simp only [Action.ensures_bind, Action.ensures_host, hentry]
  cases entry with
  | none => exact hQ w.host.messages
  | some entry => exact hQ _

/-- Ending a subscription does to the gist what the terms say. -/
theorem unsubscribe_obeys (sub : SubscriptionId) :
    (unsubscribe sub : Action Desk C Unit).Obeys terms.fit (terms.unsubscribe sub) := by
  intro w hreliable
  unfold unsubscribe
  rw [Action.ensures_bind, Action.ensures_host]
  cases hs : w.host.subscriptions[sub]? with
  | none =>
    have hnone : Books.serving w.host.subscriptions sub = none := by simp [Books.serving, hs]
    exact ⟨w.host, w.client, rfl, hreliable, rfl, .inr ⟨hnone, rfl⟩⟩
  | some s =>
    by_cases hended : s.ended = true
    · have hnone : Books.serving w.host.subscriptions sub = none := by
        simp [Books.serving, hs, hended]
      simp only [hended, if_true]
      exact ⟨w.host, w.client, rfl, hreliable, rfl, .inr ⟨hnone, rfl⟩⟩
    · simp only [hended, Bool.false_eq_true, if_false]
      refine ⟨_, w.client, rfl, hreliable, rfl, .inl ⟨s, hs, by simpa using hended, ?_⟩⟩
      exact gist_modifySource (SourceFile.gist_modifyListeners s.event _) s.source
        { w.host with
          subscriptions := w.host.subscriptions.modify sub ({ · with ended := true }) }

/-- Moving the focus does to the gist what the terms say. -/
theorem focus_obeys (source : SourceId) (span : Span) (highlight : Bool) :
    (focus source span highlight : Action Desk C Unit).Obeys terms.fit
      (terms.focus source span highlight) := by
  intro w hreliable
  unfold focus
  rw [Action.ensures_bind]
  refine requireOpen_ensures (fun _ _ => ⟨w.host, w.client, rfl, hreliable, rfl⟩) ?_
  intro s _ _
  have hgist : ({ w.host with
      sources := w.host.sources.modify source
        ({ · with selection := some span, highlighted := highlight }) } : Desk).gist =
      w.host.gist :=
    gist_modifySource_same (by exact fun _ => rfl) source w.host
  unfold modifySource
  rw [Action.ensures_bind, Action.ensures_modifyHost, Action.ensures_bind, ofExcept_ensures]
  cases focusReport s.name (Text.units s.text) span highlight with
  | error e => exact ⟨_, w.client, rfl, hreliable, hgist⟩
  | ok rows =>
    refine write_ensures (by exact hreliable) _ ?_
    intro output houtput
    exact ⟨_, w.client, rfl, ⟨houtput, hreliable.2⟩, hgist⟩

/-- A reliable desk honours its terms. -/
theorem host_honours : (host : Host Desk C).Honours terms where
  tree source := by
    intro w hreliable
    unfold host
    simp only [Action.ensures_bind]
    cases hs : w.host.sources[source]? with
    | none =>
      rw [findSource_of_none hs]
      exact ⟨w.host, w.client, rfl, hreliable, rfl, by simp [Gist.page?, gist, hs, Except.toOption]⟩
    | some s =>
      rw [findSource_ensures hs, ofExcept_ensures]
      have htree : s.currentTree.toOption =
          (w.host.gist.page? source).bind Page.currentTree? := by
        rw [SourceFile.toOption_currentTree]
        simp [Gist.page?, gist, hs]
      cases hr : s.currentTree with
      | ok tree => exact ⟨w.host, w.client, rfl, hreliable, rfl, hr ▸ htree⟩
      | error e => exact ⟨w.host, w.client, rfl, hreliable, rfl, hr ▸ htree⟩
  subscribe source event callback := by
    intro w hreliable
    refine ⟨_, w.client, rfl, hreliable, rfl, ?_⟩
    exact gist_modifySource (SourceFile.gist_modifyListeners event _) source
      { w.host with
        subscriptions := w.host.subscriptions ++ [{ source, event, callback }] }
  unsubscribe := unsubscribe_obeys
  isAvailable source := by
    intro w hreliable
    unfold host
    simp only [Action.ensures_bind]
    cases hs : w.host.sources[source]? with
    | none =>
      rw [findSource_of_none hs]
      exact ⟨w.host, w.client, rfl, hreliable, rfl⟩
    | some s =>
      rw [findSource_ensures hs]
      exact ⟨w.host, w.client, rfl, hreliable, rfl⟩
  sourceName source := by
    intro w hreliable
    unfold host
    simp only [Action.ensures_bind]
    cases hs : w.host.sources[source]? with
    | none =>
      rw [findSource_of_none hs]
      exact ⟨w.host, w.client, rfl, hreliable, rfl, by simp [Gist.page?, gist, hs, Except.toOption]⟩
    | some s =>
      rw [findSource_ensures hs]
      exact ⟨w.host, w.client, rfl, hreliable, rfl, by simp [Gist.page?, gist, hs, Except.toOption]⟩
  createView title := by
    intro w hreliable
    exact ⟨_, w.client, rfl, hreliable, rfl, rfl⟩
  showLines view lines := by
    intro w hreliable
    unfold host setPaneContent modifyPane print findPane
    simp only [Action.ensures_bind, Action.ensures_modifyHost, Action.ensures_host,
      Action.ensures_pure]
    refine write_ensures (by exact hreliable) _ ?_
    intro output houtput
    exact ⟨_, w.client, rfl, ⟨houtput, hreliable.2⟩, rfl, rfl⟩
  destroyView view := by
    intro w hreliable
    unfold host destroyPane modifyPane findPane
    simp only [Action.ensures_bind, Action.ensures_modifyHost, Action.ensures_host,
      Action.ensures_pure]
    refine write_ensures (by exact hreliable) _ ?_
    intro output houtput
    exact ⟨_, w.client, rfl, ⟨houtput, hreliable.2⟩, rfl, rfl⟩
  focus := focus_obeys
  log message := by
    intro w hreliable
    refine log_ensures hreliable message fun messages => ?_
    exact ⟨_, w.client, rfl, hreliable, rfl, rfl⟩

end

end Desk

end TreeInspector
