import TreeInspector.Proofs.Desk.Moves

/-!
# What sessions cannot change

Sessions listen to sources, show them in panes and select spans of those that are open. The rest of
a desk is its ground: the disk, the watchers, and of each source its texts, its tree and faults,
whether it is closed and watched, and, once it is closed, its selection. As long as the journal
takes all messages, no operation on a session changes the ground, and neither does an announcement.
The operations of the desk itself are then followed by what they do to the ground.
-/

set_option autoImplicit false

namespace TreeInspector

/-- The source without what sessions do to it. -/
def SourceFile.ground (s : SourceFile) : SourceFile :=
  { s with
    selection := if s.closed then s.selection else none
    highlighted := s.closed && s.highlighted
    commitListeners := []
    destroyListeners := [] }

/-- The source once it has been closed. -/
def SourceFile.shut (s : SourceFile) : SourceFile :=
  { s with closed := true, watcher := none, selection := none }

namespace Desk

/-- The desk without what sessions do to it. -/
def ground (d : Desk) : Desk :=
  { d with
    sources := d.sources.map SourceFile.ground
    subscriptions := []
    panes := []
    output := {}
    messages := []
    trace := [] }

/-- The journal takes all messages. -/
def Talks (d : Desk) : Prop := ∀ message, ∃ entry, d.journal.entry? message = .ok entry

section

variable {d d' : Desk} {source : SourceId}

/-- A change of a source that its ground does not show. -/
theorem ground_modifySource {f : SourceFile → SourceFile}
    (hf : ∀ s, d.sources[source]? = some s → (f s).ground = s.ground) :
    ({ d with sources := d.sources.modify source f } : Desk).ground = d.ground := by
  have hsame : (d.sources.modify source f).map SourceFile.ground =
      d.sources.map SourceFile.ground := by
    apply List.ext_getElem?
    intro i
    rw [List.getElem?_map, List.getElem?_map, List.getElem?_modify]
    by_cases hi : source = i
    · subst hi
      cases hs : d.sources[source]? with
      | none => rfl
      | some s => simp [hf s hs]
    · simp [hi]
  unfold ground
  simp only [hsame]

/-- Who listens to a source is not part of its ground. -/
theorem ground_modifyListeners (event : Notice) (f : List SubscriptionId → List SubscriptionId)
    (s : SourceFile) : (s.modifyListeners event f).ground = s.ground := by
  cases event <;> rfl

/-- Two desks with the same ground have the same sources, but for what sessions do. -/
theorem source_of_ground (hground : d'.ground = d.ground) (source : SourceId) :
    d'.sources[source]?.map SourceFile.ground = d.sources[source]?.map SourceFile.ground := by
  have hsources : d'.ground.sources = d.ground.sources := by rw [hground]
  have hsame : d'.sources.map SourceFile.ground = d.sources.map SourceFile.ground := hsources
  rw [← List.getElem?_map, ← List.getElem?_map, hsame]

/-- Whether the journal takes all messages belongs to the ground. -/
theorem Talks.of_ground (htalks : d.Talks) (hground : d'.ground = d.ground) : d'.Talks := by
  have hjournal : d'.ground.journal = d.ground.journal := by rw [hground]
  have hsame : d'.journal = d.journal := hjournal
  unfold Talks
  rw [hsame]
  exact htalks

end

/-! ## Calls of the desk as a host -/

section

variable {C α β γ : Type} {w : World Desk C} {source : SourceId}

/-- Nothing but the desk and the client has changed, and the given part of the desk has not. -/
def Left (part : Desk → γ) (w w' : World Desk C) : Prop :=
  ∃ d c, w' = w.beside d c ∧ part d = part w.host

/-- However the action ends, it leaves the given part of the desk as it is. -/
def Leaves (part : Desk → γ) (a : Action Desk C α) : Prop :=
  ∀ w, a.Ensures w (fun _ w' => Left part w w') (fun _ w' => Left part w w')

section

variable {part : Desk → γ}

/-- A world has left itself as it is. -/
theorem Left.refl (part : Desk → γ) (w : World Desk C) : Left part w w :=
  ⟨w.host, w.client, rfl, rfl⟩

/-- A part that was left twice was left. -/
theorem Left.trans {w₁ w₂ w₃ : World Desk C} (first : Left part w₁ w₂)
    (second : Left part w₂ w₃) : Left part w₁ w₃ := by
  obtain ⟨d, c, rfl, hd⟩ := first
  obtain ⟨d', c', rfl, hd'⟩ := second
  exact ⟨d', c', rfl, hd'.trans hd⟩

/-- Actions one after the other leave a part that each of them leaves. -/
theorem Leaves.bind {a : Action Desk C α} {f : α → Action Desk C β} (ha : Leaves part a)
    (hf : ∀ x, Leaves part (f x)) : Leaves part (a >>= f) := by
  intro w
  refine (ha w).bind ?_ (fun _ _ h => h)
  intro x w₁ hleft
  exact (hf x w₁).mono (fun _ _ h => hleft.trans h) (fun _ _ h => hleft.trans h)

/-- An action that does nothing leaves everything. -/
theorem leaves_pure (x : α) : Leaves part (pure x : Action Desk C α) := fun w => .refl part w

/-- An outcome taken as an action leaves everything. -/
theorem leaves_ofExcept (r : Except Failure α) :
    Leaves part (Action.ofExcept r : Action Desk C α) := by
  intro w
  rw [ofExcept_ensures]
  cases r <;> exact .refl part w

/-- Looking at the desk leaves everything. -/
theorem leaves_host : Leaves part (Action.host : Action Desk C Desk) := fun w => .refl part w

/-- A change of the desk leaves a part that it does not change. -/
theorem leaves_modifyHost {f : Desk → Desk} (hf : ∀ d, part (f d) = part d) :
    Leaves part (Action.modifyHost f : Action Desk C Unit) := fun w => ⟨_, w.client, rfl, hf w.host⟩

/-- Looking for a source leaves everything. -/
theorem leaves_findSource : Leaves part (findSource source : Action Desk C SourceFile) := by
  refine leaves_host.bind fun d => ?_
  cases d.sources[source]? with
  | none => exact leaves_ofExcept (.error _)
  | some s => exact leaves_pure s

/-- Writing leaves each part that does not depend on the output. -/
theorem leaves_write (hpart : ∀ d output, part { d with output := output } = part d)
    (text : String) : Leaves part (write text : Action Desk C Unit) :=
  leaves_host.bind fun _ => (leaves_modifyHost fun d => hpart d _).bind fun _ => leaves_ofExcept _

/-- Writing a file leaves each part that does not depend on the disk. -/
theorem leaves_writeFile (hpart : ∀ d disk, part { d with disk := disk } = part d)
    (path text : String) : Leaves part (writeFile path text : Action Desk C Unit) :=
  leaves_host.bind fun _ => (leaves_modifyHost fun d => hpart d _).bind fun _ => leaves_ofExcept _

/-- Logging leaves each part that does not depend on the messages. -/
theorem leaves_log (hpart : ∀ d messages, part { d with messages := messages } = part d)
    (message : String) : Leaves part (log message : Action Desk C Unit) := by
  refine leaves_host.bind fun d => ?_
  split
  · exact leaves_ofExcept (.error _)
  · exact leaves_pure _
  · exact leaves_modifyHost fun d => hpart d _

/-- Reporting faults leaves each part that does not depend on the messages. -/
theorem leaves_reportFaults (hpart : ∀ d messages, part { d with messages := messages } = part d) :
    Leaves part (reportFaults source : Action Desk C Unit) := by
  refine leaves_findSource.bind fun s => ?_
  generalize s.faultTexts = texts
  induction texts with
  | nil => exact leaves_pure _
  | cons text texts ih => exact (leaves_log hpart _).bind fun _ => ih

/-- The part of the desk does not depend on what is watched. -/
structure Unwatched (part : Desk → γ) : Prop where
  watchers : ∀ d watchers, part { d with watchers := watchers } = part d
  trace : ∀ d trace, part { d with trace := trace } = part d
  watcher : ∀ d source watcher, part { d with
    sources := d.sources.modify source ({ · with watcher := watcher }) } = part d

/-- Replacing a watcher leaves each part that does not depend on what is watched. -/
theorem leaves_replaceWatcher (hpart : Unwatched part) (watcher : Option WatcherId) :
    Leaves part (replaceWatcher source watcher : Action Desk C Unit) := by
  have hset : Leaves part (modifySource source ({ · with watcher := watcher }) :
      Action Desk C Unit) := leaves_modifyHost fun d => hpart.watcher d source watcher
  refine leaves_findSource.bind fun s => ?_
  cases s.watcher with
  | none => exact hset
  | some old =>
    refine Leaves.bind (leaves_host.bind fun d => ?_) fun _ => hset
    cases d.watchers[old]? with
    | none => exact leaves_pure _
    | some t =>
      exact (leaves_modifyHost fun d => hpart.watchers d _).bind fun _ =>
        leaves_modifyHost fun d => hpart.trace d _

/-- Watching a source leaves each part that does not depend on what is watched. -/
theorem leaves_watchSource (hpart : Unwatched part) :
    Leaves part (watchSource source : Action Desk C Unit) :=
  leaves_host.bind fun _ => leaves_findSource.bind fun _ => (leaves_ofExcept _).bind fun _ =>
    (leaves_modifyHost fun d => hpart.watchers d _).bind fun _ =>
      (leaves_modifyHost fun d => hpart.trace d _).bind fun _ => leaves_replaceWatcher hpart _

/-- The part of the desk does not depend on who listens. -/
structure Unlistened (part : Desk → γ) : Prop where
  subscriptions : ∀ d subscriptions, part { d with subscriptions := subscriptions } = part d
  listeners : ∀ d source event change, part { d with
    sources := d.sources.modify source (·.modifyListeners event change) } = part d

/-- Subscribing leaves each part that does not depend on who listens. -/
theorem leaves_subscribe (hpart : Unlistened part) (event : Notice) (callback : Callback) :
    Leaves part (subscribe source event callback : Action Desk C SubscriptionId) := by
  refine leaves_host.bind fun d => ?_
  refine (leaves_modifyHost fun d => hpart.subscriptions d _).bind fun _ => ?_
  exact (leaves_modifyHost fun d => hpart.listeners d source event _).bind fun _ => leaves_pure _

/-- Ending a subscription leaves each part that does not depend on who listens. -/
theorem leaves_unsubscribe (hpart : Unlistened part) (sub : SubscriptionId) :
    Leaves part (unsubscribe sub : Action Desk C Unit) := by
  refine leaves_host.bind fun d => ?_
  cases d.subscriptions[sub]? with
  | none => exact leaves_pure _
  | some s =>
    dsimp only
    split
    · exact leaves_pure _
    · exact (leaves_modifyHost fun d => hpart.subscriptions d _).bind fun _ =>
        leaves_modifyHost fun d => hpart.listeners d s.source s.event _

end

/-- A change of a source that keeps its ground leaves the ground of the desk. -/
theorem grazes_modifySource {f : SourceFile → SourceFile} (hf : ∀ s, (f s).ground = s.ground) :
    Leaves ground (modifySource source f : Action Desk C Unit) :=
  leaves_modifyHost fun _ => ground_modifySource fun s _ => hf s

/-- Writing leaves the ground. -/
theorem grazes_write (text : String) : Leaves ground (write text : Action Desk C Unit) :=
  leaves_write (fun _ _ => rfl) text

/-- Logging leaves the ground. -/
theorem grazes_log (message : String) : Leaves ground (log message : Action Desk C Unit) :=
  leaves_log (fun _ _ => rfl) message

/-- Reporting faults leaves the ground. -/
theorem grazes_reportFaults : Leaves ground (reportFaults source : Action Desk C Unit) :=
  leaves_reportFaults (fun _ _ => rfl)

/-- The ground does not depend on who listens. -/
theorem ground_unlistened : Unlistened ground where
  subscriptions _ _ := rfl
  listeners _ _ event change :=
    ground_modifySource fun s _ => ground_modifyListeners event change s

/-- Subscribing leaves the ground. -/
theorem grazes_subscribe (event : Notice) (callback : Callback) :
    Leaves ground (subscribe source event callback : Action Desk C SubscriptionId) :=
  leaves_subscribe ground_unlistened event callback

/-- Ending a subscription leaves the ground. -/
theorem grazes_unsubscribe (sub : SubscriptionId) :
    Leaves ground (unsubscribe sub : Action Desk C Unit) :=
  leaves_unsubscribe ground_unlistened sub

/-- Only a span of an open source is selected, which the ground does not show. -/
theorem grazes_focus (span : Span) (highlight : Bool) :
    Leaves ground (focus source span highlight : Action Desk C Unit) := by
  intro w
  unfold focus
  rw [Action.ensures_bind]
  refine requireOpen_ensures (fun _ _ => .refl ground w) fun s hs hopen => ?_
  have hselected : Left ground w (w.beside { w.host with
      sources := w.host.sources.modify source
        ({ · with selection := some span, highlighted := highlight }) } w.client) := by
    refine ⟨_, _, rfl, ground_modifySource fun s' hs' => ?_⟩
    rw [hs] at hs'
    cases hs'
    simp [SourceFile.ground, hopen]
  have hwrites : Leaves ground (do
      let rows ← Action.ofExcept (focusReport s.name (Text.units s.text) span highlight)
      write (String.join (rows.map (· ++ "\n"))) : Action Desk C Unit) :=
    (leaves_ofExcept _).bind fun _ => grazes_write _
  exact (hwrites _).mono (fun _ _ h => hselected.trans h) (fun _ _ h => hselected.trans h)

/-- The ground is the one given, and stays so, whatever is called. -/
def groundTerms (g : Desk) : Terms Desk where
  fit d := d.ground = g ∧ d.Talks
  tree _ _ _ _ := True
  subscribe _ _ _ _ _ _ := True
  unsubscribe _ _ _ _ := True
  isAvailable _ _ _ _ := True
  sourceName _ _ _ _ := True
  createView _ _ _ _ := True
  showLines _ _ _ _ _ := True
  destroyView _ _ _ _ := True
  focus _ _ _ _ _ _ := True
  log _ _ _ := True

/-- An action that leaves the ground keeps to the terms of the ground. -/
theorem Leaves.obeys {a : Action Desk C α} (ha : Leaves ground a) {g : Desk} :
    a.Obeys (groundTerms g).fit fun _ _ _ => True := by
  intro w hfit
  refine (ha w).mono ?_ ?_
  · rintro _ _ ⟨d, c, rfl, hd⟩
    exact ⟨d, c, rfl, ⟨hd.trans hfit.1, hfit.2.of_ground hd⟩, trivial⟩
  · rintro _ _ ⟨d, c, rfl, hd⟩
    exact ⟨d, c, rfl, ⟨hd.trans hfit.1, hfit.2.of_ground hd⟩, trivial⟩

/-- Looking for a source gives it or fails, and nothing happens. -/
theorem findSource_settled {Q : SourceFile → World Desk C → Prop}
    {E : Failure → World Desk C → Prop} (hQ : ∀ s, w.host.sources[source]? = some s → Q s w)
    (hE : ∀ e, E e w) : (findSource source).Ensures w Q E := by
  cases hs : w.host.sources[source]? with
  | none => exact (findSource_of_none hs).2 (hE _)
  | some s => exact (findSource_ensures hs).2 (hQ s hs)

/-- A desk that talks logs without fail, and only its messages change. -/
theorem log_of_talks (htalks : w.host.Talks) (message : String) {Q : Unit → World Desk C → Prop}
    {E : Failure → World Desk C → Prop}
    (hQ : ∀ messages, Q () (w.beside { w.host with messages := messages } w.client)) :
    (log message).Ensures w Q E := by
  obtain ⟨entry, hentry⟩ := htalks message
  unfold log
  simp only [Action.ensures_bind, Action.ensures_host, hentry]
  cases entry with
  | none => exact hQ w.host.messages
  | some entry => exact hQ _

/-- No call of the host changes the ground. -/
theorem host_honours_ground (g : Desk) : (host : Host Desk C).Honours (groundTerms g) where
  tree _ := (leaves_findSource.bind fun _ => leaves_ofExcept _).obeys
  subscribe _ event callback := (grazes_subscribe event callback).obeys
  unsubscribe sub := (grazes_unsubscribe sub).obeys
  isAvailable _ := (leaves_findSource.bind fun _ => leaves_pure _).obeys
  sourceName _ := (leaves_findSource.bind fun _ => leaves_pure _).obeys
  createView _ := (leaves_host.bind fun _ =>
    (leaves_modifyHost (by exact fun _ => rfl)).bind fun _ => leaves_pure _).obeys
  showLines _ _ := ((leaves_modifyHost (by exact fun _ => rfl)).bind fun _ =>
    (leaves_host.bind fun _ => leaves_pure _).bind fun _ => grazes_write _).obeys
  destroyView _ := ((leaves_modifyHost (by exact fun _ => rfl)).bind fun _ =>
    (leaves_host.bind fun _ => leaves_pure _).bind fun _ => grazes_write _).obeys
  focus _ span highlight := (grazes_focus span highlight).obeys
  log message := by
    intro w hfit
    refine log_of_talks hfit.2 message fun messages => ?_
    exact ⟨_, w.client, rfl, hfit, rfl, trivial⟩

/-! ## Moves of sessions, and announcements -/

/-- Nothing of the ground of the desk has changed. -/
def SameGround (w w' : World Desk C) : Prop := w'.host.ground = w.host.ground

/-- No move of sessions changes the ground. -/
theorem move_sameGround (htalks : w.host.Talks) (m : Move) :
    SameGround w ((m.run host).outcome w).2 :=
  (m.run_fits (host_honours_ground w.host.ground) ⟨rfl, htalks⟩).1

variable {deliver : Callback → Action Desk C Unit}

/-- Calling someone does not change the ground, if clients do not. -/
theorem deliver_sameGround (hrelays : Relays deliver) (hdiscreet : Discreet deliver)
    (htalks : w.host.Talks) (callback : Callback) :
    (deliver callback).Ensures w (fun _ w' => SameGround w w') (fun _ w' => SameGround w w') := by
  cases callback with
  | session id event =>
    rw [hrelays]
    exact (Session.notify_tendsTo (host_honours_ground w.host.ground) ⟨rfl, htalks⟩ id event).mono
      (fun _ _ h => h.1.1) (fun _ _ h => h.1.1)
  | client listener =>
    refine (hdiscreet listener w).mono ?_ ?_
    · rintro _ _ ⟨output, messages, trace, c, rfl⟩
      rfl
    · rintro _ _ ⟨output, messages, trace, c, rfl⟩
      rfl

/-- An announcement does not change the ground. -/
theorem announce_sameGround (hrelays : Relays deliver) (hdiscreet : Discreet deliver)
    (htalks : w.host.Talks) (source : SourceId) (event : Notice) :
    (announce deliver source event).Ensures w (fun _ w' => SameGround w w')
      (fun _ w' => SameGround w w') := by
  unfold announce
  rw [Action.ensures_bind]
  refine findSource_settled (fun s _ => ?_) (fun _ => rfl)
  refine Action.ensures_forM (I := SameGround w) _ ?_ w rfl
  intro sub _ w' hsame
  rw [Action.ensures_bind, Action.ensures_host]
  cases w'.host.subscriptions[sub]? with
  | none => exact hsame
  | some s =>
    exact (deliver_sameGround hrelays hdiscreet (htalks.of_ground hsame) s.callback).mono
      (fun _ _ h => h.trans hsame) (fun _ _ h => h.trans hsame)

/-! ## Exact effects -/

/-- The watchers with one of them stopped, if one is given. -/
def stopped (watchers : List Watcher) : Option WatcherId → List Watcher
  | none => watchers
  | some watcher => watchers.modify watcher ({ · with isOpen := false })

/-- What is noted of stopping a watcher, if there is one. -/
def stopNotes (watchers : List Watcher) (watcher : Option WatcherId) : List String :=
  (watcher.bind (watchers[·]?)).toList.map fun t => "unwatch " ++ t.path.text

/-- A watcher is replaced by stopping the one before it, which is noted. -/
theorem replaceWatcher_ensures {s : SourceFile} (hs : w.host.sources[source]? = some s)
    (watcher : Option WatcherId) {Q : Unit → World Desk C → Prop}
    {E : Failure → World Desk C → Prop}
    (hQ : Q () (w.beside
      { w.host with
        watchers := stopped w.host.watchers s.watcher
        sources := w.host.sources.modify source ({ · with watcher := watcher })
        trace := w.host.trace ++ stopNotes w.host.watchers s.watcher } w.client)) :
    (replaceWatcher source watcher).Ensures w Q E := by
  unfold replaceWatcher
  rw [Action.ensures_bind, findSource_ensures hs]
  unfold stopNotes at hQ
  cases hold : s.watcher with
  | none =>
    rw [hold, Option.bind_none, Option.toList_none, List.map_nil, List.append_nil] at hQ
    exact hQ
  | some old =>
    rw [hold, Option.bind_some] at hQ
    unfold stopWatcher
    rw [Action.ensures_bind, Action.ensures_bind, Action.ensures_host]
    cases ht : w.host.watchers[old]? with
    | some t =>
      rw [ht] at hQ
      exact hQ
    | none =>
      have hsame : stopped w.host.watchers (some old) = w.host.watchers :=
        List.modify_eq_self (List.getElem?_eq_none_iff.1 ht)
      rw [ht, hsame, Option.toList_none, List.map_nil, List.append_nil] at hQ
      exact hQ

/-- Closing a source stops its watcher and drops its selection. -/
theorem shut_ensures {s : SourceFile} (hs : w.host.sources[source]? = some s)
    {Q : Unit → World Desk C → Prop} {E : Failure → World Desk C → Prop}
    (hQ : ∀ trace, Q () (w.beside
      { w.host with
        watchers := stopped w.host.watchers s.watcher
        sources := w.host.sources.modify source SourceFile.shut
        trace := trace } w.client)) :
    (shut source).Ensures w Q E := by
  have hmarked : (w.host.sources.modify source ({ · with closed := true }))[source]? =
      some { s with closed := true } := by
    rw [List.getElem?_modify_eq, hs]
    rfl
  unfold shut
  rw [Action.ensures_bind]
  unfold modifySource
  rw [Action.ensures_modifyHost, Action.ensures_bind]
  refine replaceWatcher_ensures hmarked none ?_
  rw [Action.ensures_modifyHost]
  have hsame : ((w.host.sources.modify source ({ · with closed := true })).modify source
      ({ · with watcher := none })).modify source ({ · with selection := none }) =
      w.host.sources.modify source SourceFile.shut := by
    rw [List.modify_modify_eq, List.modify_modify_eq]
    rfl
  have hshut := hQ (w.host.trace ++ stopNotes w.host.watchers s.watcher)
  rw [← hsame] at hshut
  exact hshut

/-- The desk after a source has got a new watcher in the place of the one that it had. -/
def renewed (source : SourceId) (s : SourceFile) (d : Desk) : Desk :=
  let path := d.disk.resolve s.path
  let watchers := d.watchers ++ [{ path := path, source := source }]
  { d with
    watchers := stopped watchers s.watcher
    sources := d.sources.modify source ({ · with watcher := some d.watchers.length })
    trace := d.trace ++ ["watch " ++ path.text] ++ stopNotes watchers s.watcher }

/-- Watching a source anew is refused before anything happens, or renews its watcher. -/
theorem watchSource_renews {s : SourceFile} (hs : w.host.sources[source]? = some s)
    {Q : Unit → World Desk C → Prop} {E : Failure → World Desk C → Prop}
    (hrefused : ∀ e, (w.host.disk.checkWatch (w.host.disk.resolve s.path)).isOk = false → E e w)
    (hrenewed : (w.host.disk.checkWatch (w.host.disk.resolve s.path)).isOk = true →
      Q () (w.beside (w.host.renewed source s) w.client)) :
    (watchSource source).Ensures w Q E := by
  unfold watchSource
  rw [Action.ensures_bind, Action.ensures_host, Action.ensures_bind, findSource_ensures hs,
    Action.ensures_bind, ofExcept_ensures]
  cases hcheck : w.host.disk.checkWatch (w.host.disk.resolve s.path) with
  | error e => exact hrefused e (by rw [hcheck]; rfl)
  | ok _ =>
    dsimp only
    rw [Action.ensures_bind, Action.ensures_modifyHost, Action.ensures_bind]
    unfold note
    rw [Action.ensures_modifyHost]
    refine replaceWatcher_ensures (s := s) ?_ _ ?_
    · exact hs
    · exact hrenewed (by rw [hcheck]; rfl)

/-- As `watchSource_renews`, whatever is noted. -/
theorem watchSource_cases {s : SourceFile} (hs : w.host.sources[source]? = some s)
    {Q : Unit → World Desk C → Prop} {E : Failure → World Desk C → Prop}
    (hrefused : ∀ e, (w.host.disk.checkWatch (w.host.disk.resolve s.path)).isOk = false → E e w)
    (hwatched : ∀ path trace, (w.host.disk.checkWatch (w.host.disk.resolve s.path)).isOk = true →
      Q () (w.beside
        { w.host with
          watchers := stopped (w.host.watchers ++ [{ path, source }]) s.watcher
          sources := w.host.sources.modify source
            ({ · with watcher := some w.host.watchers.length })
          trace := trace } w.client)) :
    (watchSource source).Ensures w Q E :=
  watchSource_renews hs hrefused (hwatched _ _)

/-- Reporting faults adds messages to the log. -/
theorem reportFaults_ensures {s : SourceFile} (hs : w.host.sources[source]? = some s)
    (htalks : w.host.Talks) {Q : Unit → World Desk C → Prop}
    {E : Failure → World Desk C → Prop}
    (hQ : ∀ messages, Q () (w.beside { w.host with messages := messages } w.client)) :
    (reportFaults source).Ensures w Q E := by
  unfold reportFaults
  rw [Action.ensures_bind, findSource_ensures hs]
  generalize s.faultTexts = texts
  induction texts generalizing w with
  | nil => exact hQ w.host.messages
  | cons text texts ih =>
    refine Action.ensures_bind.2 (log_of_talks htalks _ fun messages => ?_)
    exact ih hs htalks hQ

end

end Desk

end TreeInspector
