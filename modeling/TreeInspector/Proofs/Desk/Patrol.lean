import TreeInspector.Proofs.Desk.Ground

/-!
# Patrols

The patrol of a desk is what matters of it to the watchers: the list of all watchers that were ever
made, and for each source whether it is closed and which watcher it holds. `Patrol.Guarded` says
that each source holds the one open watcher that it has, and that this is the last one made for it.
Closing a source, giving it a new watcher and adding a source keep to this.
-/

set_option autoImplicit false

namespace TreeInspector

/-! ## Lists of watchers -/

/-- The watcher was made for the source. -/
def MadeFor (watchers : List Watcher) (source : SourceId) (watcher : WatcherId) : Prop :=
  ∃ t, watchers[watcher]? = some t ∧ t.source = source

/-- The watcher was made for the source and has not been stopped. -/
def OpenFor (watchers : List Watcher) (source : SourceId) (watcher : WatcherId) : Prop :=
  ∃ t, watchers[watcher]? = some t ∧ t.source = source ∧ t.isOpen = true

section

variable {watchers : List Watcher} {source : SourceId} {watcher : WatcherId}

/-- An open watcher of a source was made for it. -/
theorem OpenFor.made (h : OpenFor watchers source watcher) : MadeFor watchers source watcher := by
  obtain ⟨t, ht, hsource, -⟩ := h
  exact ⟨t, ht, hsource⟩

/-- Watchers that were made are numbered in order. -/
theorem MadeFor.lt_length (h : MadeFor watchers source watcher) : watcher < watchers.length := by
  obtain ⟨t, ht, -⟩ := h
  exact (List.getElem?_eq_some_iff.1 ht).1

/-- A watcher is made for one source. -/
theorem MadeFor.source_eq {other : SourceId} (h : MadeFor watchers source watcher)
    (h' : MadeFor watchers other watcher) : source = other := by
  obtain ⟨t, ht, rfl⟩ := h
  obtain ⟨t', ht', rfl⟩ := h'
  rw [ht] at ht'
  cases ht'
  rfl

/-- One more watcher was made for its maker, and the others for whom they were. -/
theorem madeFor_concat {path : Path} {maker : SourceId} :
    MadeFor (watchers ++ [{ path, source := maker }]) source watcher ↔
      MadeFor watchers source watcher ∨ watcher = watchers.length ∧ source = maker := by
  unfold MadeFor
  rw [World.getElem?_concat]
  by_cases hlast : watcher = watchers.length
  · rw [if_pos hlast, hlast, List.getElem?_eq_none (Nat.le_refl _)]
    constructor
    · rintro ⟨t, ⟨⟩, rfl⟩
      exact .inr ⟨rfl, rfl⟩
    · rintro (⟨t, hnever, -⟩ | ⟨-, rfl⟩)
      · cases hnever
      · exact ⟨_, rfl, rfl⟩
  · rw [if_neg hlast]
    simp [hlast]

/-- One more watcher is open for its maker, and the others are as they were. -/
theorem openFor_concat {path : Path} {maker : SourceId} :
    OpenFor (watchers ++ [{ path, source := maker }]) source watcher ↔
      OpenFor watchers source watcher ∨ watcher = watchers.length ∧ source = maker := by
  unfold OpenFor
  rw [World.getElem?_concat]
  by_cases hlast : watcher = watchers.length
  · rw [if_pos hlast, hlast, List.getElem?_eq_none (Nat.le_refl _)]
    constructor
    · rintro ⟨t, ⟨⟩, rfl, -⟩
      exact .inr ⟨rfl, rfl⟩
    · rintro (⟨t, hnever, -⟩ | ⟨-, rfl⟩)
      · cases hnever
      · exact ⟨_, rfl, rfl, rfl⟩
  · rw [if_neg hlast]
    simp [hlast]

/-- Stopping a watcher does not change whom watchers were made for. -/
theorem madeFor_stopped {old : Option WatcherId} :
    MadeFor (Desk.stopped watchers old) source watcher ↔ MadeFor watchers source watcher := by
  cases old with
  | none => rfl
  | some old =>
    unfold MadeFor Desk.stopped
    rw [List.getElem?_modify]
    by_cases hold : old = watcher
    · subst hold
      cases watchers[old]? <;> simp
    · simp [hold]

/-- Stopping a watcher leaves the others open. -/
theorem openFor_stopped {old : Option WatcherId} :
    OpenFor (Desk.stopped watchers old) source watcher ↔
      OpenFor watchers source watcher ∧ old ≠ some watcher := by
  cases old with
  | none => simp [Desk.stopped]
  | some old =>
    unfold OpenFor Desk.stopped
    rw [List.getElem?_modify]
    by_cases hold : old = watcher
    · subst hold
      cases watchers[old]? <;> simp
    · simp [hold]

end

/-! ## Patrols -/

/-- What matters of a source to its watchers. -/
structure Post where
  closed : Bool
  watcher : Option WatcherId

/-- What matters of a desk to the watchers. -/
structure Patrol where
  watching : Bool
  watchers : List Watcher
  post? : SourceId → Option Post

namespace Patrol

/-- Every source holds its open watcher, the last one made for it; only sources that were handed out
have had watchers, and on a desk that watches those that are open have one. -/
structure Guarded (p : Patrol) (handed : Set SourceId) : Prop where
  present : ∀ {source}, source ∈ handed → ∃ post, p.post? source = some post
  owned : ∀ {source watcher}, MadeFor p.watchers source watcher →
    source ∈ handed ∧ p.watching = true
  held : ∀ {source post watcher}, p.post? source = some post → post.watcher = some watcher →
    OpenFor p.watchers source watcher
  last : ∀ {source post watcher other}, p.post? source = some post →
    post.watcher = some watcher → MadeFor p.watchers source other → other ≤ watcher
  only : ∀ {source post other}, p.post? source = some post → OpenFor p.watchers source other →
    post.watcher = some other
  watched : ∀ {source post}, p.post? source = some post → source ∈ handed → p.watching = true →
    post.closed = false → ∃ watcher, post.watcher = some watcher
  shut : ∀ {source post}, p.post? source = some post → post.closed = true → post.watcher = none

/-- The patrol after a source has been closed. -/
def closing (source : SourceId) (post : Post) (p : Patrol) : Patrol :=
  { p with
    watchers := Desk.stopped p.watchers post.watcher
    post? := Function.update p.post? source (some ⟨true, none⟩) }

/-- The patrol after a source has got another watcher. -/
def renewing (source : SourceId) (path : Path) (post : Post) (p : Patrol) : Patrol :=
  { p with
    watchers := Desk.stopped (p.watchers ++ [{ path, source }]) post.watcher
    post? := Function.update p.post? source (some { post with watcher := p.watchers.length }) }

/-- The patrol with a source that is not watched. -/
def joining (source : SourceId) (p : Patrol) : Patrol :=
  { p with post? := Function.update p.post? source (some ⟨false, none⟩) }

/-- A post after one has been set is that one, or the post of another source from before. -/
theorem post_cases {posts : SourceId → Option Post} {source other : SourceId} {post post' : Post}
    (h : Function.update posts source (some post) other = some post') :
    other = source ∧ post' = post ∨ other ≠ source ∧ posts other = some post' := by
  by_cases hother : other = source
  · subst hother
    rw [Function.update_self] at h
    exact .inl ⟨rfl, (Option.some.inj h).symm⟩
  · rw [Function.update_of_ne hother] at h
    exact .inr ⟨hother, h⟩

namespace Guarded

variable {p : Patrol} {handed : Set SourceId} {source : SourceId} {post : Post}

/-- Every source that had a post has one afterwards. -/
theorem present_update (hp : p.Guarded handed) (post : Post) {other : SourceId}
    (hother : other ∈ insert source handed) :
    ∃ post', Function.update p.post? source (some post) other = some post' := by
  by_cases hsame : other = source
  · subst hsame
    exact ⟨post, Function.update_self _ _ _⟩
  · rw [Function.update_of_ne hsame]
    exact hp.present (hother.resolve_left hsame)

/-- A source does not hold the watcher of another one. -/
theorem watcher_ne (hp : p.Guarded handed) {other : SourceId} {watcher : WatcherId}
    (hpost : p.post? source = some post) (hother : MadeFor p.watchers other watcher)
    (hne : other ≠ source) : post.watcher ≠ some watcher := by
  intro hwatcher
  exact hne (hother.source_eq (hp.held hpost hwatcher).made)

/-- Watchers still guard the sources after one has been closed. -/
theorem closing (hp : p.Guarded handed) (hpost : p.post? source = some post) :
    (p.closing source post).Guarded handed where
  present hmem := hp.present_update _ (Set.mem_insert_of_mem _ hmem)
  owned hmade := hp.owned (madeFor_stopped.1 hmade)
  held := by
    intro other post' watcher hpost' hwatcher
    rcases post_cases hpost' with ⟨-, rfl⟩ | ⟨hne, hold⟩
    · cases hwatcher
    · have hopen := hp.held hold hwatcher
      exact openFor_stopped.2 ⟨hopen, hp.watcher_ne hpost hopen.made hne⟩
  last := by
    intro other post' watcher another hpost' hwatcher hmade
    rcases post_cases hpost' with ⟨-, rfl⟩ | ⟨-, hold⟩
    · cases hwatcher
    · exact hp.last hold hwatcher (madeFor_stopped.1 hmade)
  only := by
    intro other post' watcher hpost' hisOpen
    obtain ⟨hbefore, hkept⟩ := openFor_stopped.1 hisOpen
    rcases post_cases hpost' with ⟨rfl, -⟩ | ⟨-, hold⟩
    · exact (hkept (hp.only hpost hbefore)).elim
    · exact hp.only hold hbefore
  watched := by
    intro other post' hpost' hmem hwatching hclosed
    rcases post_cases hpost' with ⟨-, rfl⟩ | ⟨-, hold⟩
    · cases hclosed
    · exact hp.watched hold hmem hwatching hclosed
  shut := by
    intro other post' hpost' hclosed
    rcases post_cases hpost' with ⟨-, rfl⟩ | ⟨-, hold⟩
    · rfl
    · exact hp.shut hold hclosed

/-- A source that is open gets a new watcher, which is the last one by then. -/
theorem renewing (hp : p.Guarded handed) (hpost : p.post? source = some post)
    (hopen : post.closed = false) (hwatching : p.watching = true) (path : Path) :
    (p.renewing source path post).Guarded (insert source handed) where
  present hmem := hp.present_update _ hmem
  owned := by
    intro other watcher hmade
    rcases madeFor_concat.1 (madeFor_stopped.1 hmade) with hold | ⟨-, rfl⟩
    · exact ⟨Set.mem_insert_of_mem _ (hp.owned hold).1, hwatching⟩
    · exact ⟨Set.mem_insert _ _, hwatching⟩
  held := by
    intro other post' watcher hpost' hwatcher
    rcases post_cases hpost' with ⟨rfl, rfl⟩ | ⟨hne, hold⟩
    · cases hwatcher
      refine openFor_stopped.2 ⟨openFor_concat.2 (.inr ⟨rfl, rfl⟩), ?_⟩
      intro hheld
      exact Nat.lt_irrefl _ (hp.held hpost hheld).made.lt_length
    · have hkept := hp.held hold hwatcher
      exact openFor_stopped.2
        ⟨openFor_concat.2 (.inl hkept), hp.watcher_ne hpost hkept.made hne⟩
  last := by
    intro other post' watcher another hpost' hwatcher hmade
    rcases post_cases hpost' with ⟨rfl, rfl⟩ | ⟨hne, hold⟩
    · cases hwatcher
      rcases madeFor_concat.1 (madeFor_stopped.1 hmade) with hold | ⟨hlast, -⟩
      · exact Nat.le_of_lt hold.lt_length
      · exact Nat.le_of_eq hlast
    · rcases madeFor_concat.1 (madeFor_stopped.1 hmade) with hmade | ⟨-, hsame⟩
      · exact hp.last hold hwatcher hmade
      · exact (hne hsame).elim
  only := by
    intro other post' watcher hpost' hisOpen
    obtain ⟨hstill, hkept⟩ := openFor_stopped.1 hisOpen
    rcases post_cases hpost' with ⟨rfl, rfl⟩ | ⟨hne, hold⟩
    · rcases openFor_concat.1 hstill with hbefore | ⟨rfl, -⟩
      · exact (hkept (hp.only hpost hbefore)).elim
      · rfl
    · rcases openFor_concat.1 hstill with hbefore | ⟨-, hsame⟩
      · exact hp.only hold hbefore
      · exact (hne hsame).elim
  watched := by
    intro other post' hpost' hmem _ hclosed
    rcases post_cases hpost' with ⟨-, rfl⟩ | ⟨hne, hold⟩
    · exact ⟨_, rfl⟩
    · exact hp.watched hold (hmem.resolve_left hne) hwatching hclosed
  shut := by
    intro other post' hpost' hclosed
    rcases post_cases hpost' with ⟨-, rfl⟩ | ⟨-, hold⟩
    · rw [show post.closed = true from hclosed] at hopen
      cases hopen
    · exact hp.shut hold hclosed

/-- A source that was not there before had no watchers. -/
theorem joining (hp : p.Guarded handed) (hnew : p.post? source = none) :
    (p.joining source).Guarded handed := by
  have hunknown : source ∉ handed := by
    intro hmem
    obtain ⟨post, hpost⟩ := hp.present hmem
    rw [hnew] at hpost
    cases hpost
  refine ⟨fun hmem => hp.present_update _ (Set.mem_insert_of_mem _ hmem), hp.owned, ?_, ?_, ?_, ?_,
    ?_⟩
  · intro other post' watcher hpost' hwatcher
    rcases post_cases hpost' with ⟨-, rfl⟩ | ⟨-, hold⟩
    · cases hwatcher
    · exact hp.held hold hwatcher
  · intro other post' watcher another hpost' hwatcher hmade
    rcases post_cases hpost' with ⟨-, rfl⟩ | ⟨-, hold⟩
    · cases hwatcher
    · exact hp.last hold hwatcher hmade
  · intro other post' watcher hpost' hisOpen
    rcases post_cases hpost' with ⟨rfl, -⟩ | ⟨-, hold⟩
    · exact (hunknown (hp.owned hisOpen.made).1).elim
    · exact hp.only hold hisOpen
  · intro other post' hpost' hmem hwatching hclosed
    rcases post_cases hpost' with ⟨rfl, -⟩ | ⟨-, hold⟩
    · exact (hunknown hmem).elim
    · exact hp.watched hold hmem hwatching hclosed
  · intro other post' hpost' hclosed
    rcases post_cases hpost' with ⟨-, rfl⟩ | ⟨-, hold⟩
    · cases hclosed
    · exact hp.shut hold hclosed

/-- A desk that does not watch hands out a source. -/
theorem handing (hp : p.Guarded handed) (hpost : p.post? source = some post)
    (hidle : p.watching = false) : p.Guarded (insert source handed) where
  present := by
    rintro other (rfl | hmem)
    · exact ⟨post, hpost⟩
    · exact hp.present hmem
  owned hmade := (hp.owned hmade).imp_left (Set.mem_insert_of_mem _)
  held := hp.held
  last := hp.last
  only := hp.only
  watched := by
    intro other post' _ _ hwatching _
    rw [hidle] at hwatching
    cases hwatching
  shut := hp.shut

end Guarded

end Patrol

namespace Desk

/-! ## The patrol of a desk -/

/-- What matters of the desk to the watchers. -/
def patrol (d : Desk) : Patrol where
  watching := d.watching
  watchers := d.watchers
  post? source := d.sources[source]?.map fun s => ⟨s.closed, s.watcher⟩

section

variable {d d' : Desk} {source : SourceId}

/-- The patrol can be told from the ground. -/
theorem patrol_ground (d : Desk) : d.ground.patrol = d.patrol := by
  unfold patrol ground
  congr 1
  funext i
  rw [List.getElem?_map, Option.map_map]
  rfl

/-- The patrol belongs to the ground. -/
theorem patrol_of_ground (hground : d'.ground = d.ground) : d'.patrol = d.patrol := by
  rw [← patrol_ground d', hground, patrol_ground]

/-- A change of a source sets its post. -/
theorem patrol_modifySource {f : SourceFile → SourceFile} {s : SourceFile} {post : Post}
    (hs : d.sources[source]? = some s) (hf : Post.mk (f s).closed (f s).watcher = post) :
    ({ d with sources := d.sources.modify source f } : Desk).patrol =
      { d.patrol with post? := Function.update d.patrol.post? source (some post) } := by
  unfold patrol
  congr 1
  funext i
  rw [List.getElem?_modify, Function.update_apply]
  by_cases hi : source = i
  · subst hi
    simp [hs, hf]
  · simp [hi, Ne.symm hi]

/-- A change of a source that does not matter to its watcher. -/
theorem patrol_modifySource_same {f : SourceFile → SourceFile}
    (hclosed : ∀ s, (f s).closed = s.closed) (hwatcher : ∀ s, (f s).watcher = s.watcher) :
    ({ d with sources := d.sources.modify source f } : Desk).patrol = d.patrol := by
  unfold patrol
  congr 1
  funext i
  rw [List.getElem?_modify]
  by_cases hi : source = i
  · subst hi
    cases d.sources[source]? <;> simp [hclosed, hwatcher]
  · simp [hi]

/-- A source that is added has no watcher yet. -/
theorem patrol_addSource (path : String) (d : Desk) :
    ({ d with sources := d.sources ++ [{ path := path }] } : Desk).patrol =
      d.patrol.joining d.sources.length := by
  unfold patrol Patrol.joining
  congr 1
  funext i
  rw [World.getElem?_concat, Function.update_apply]
  by_cases hi : i = d.sources.length
  · simp [hi]
  · simp [hi]

end

end Desk

end TreeInspector
