import TreeInspector.Proofs.Tree.Pruning

/-!
# The frames of a search stay on one path

A search goes through a loop that keeps its open nodes as frames. `turn` is one turn of that loop
over bare frames: nothing bounds their counts, and the next child is read wherever they lead, be
there a child or not. `AtTurn` is what the loop holds at the head of each turn.

Whatever the visitor does, the frames always lead down one path from the root. Each holds the
children of the node that was last taken from the frame below it, one level deeper and within the
limit, with a count that leads to one of them. Every turn makes the work that is left smaller, so
the loop ends, and it ends as the search does.
-/

set_option autoImplicit false

namespace TreeInspector

namespace Tree

section

variable {α ε σ : Type}

/-! ## The loop over bare frames -/

/-- The children of an open node and the number of those still to be visited. Nothing ties the
number to the children. -/
structure BareFrame (α : Type) where
  children : Array (Tree α)
  depth : Nat
  remaining : Int

namespace BareFrame

/-- The frame of a node just opened. -/
def opened (t : Tree α) (depth : Nat) : BareFrame α :=
  ⟨t.children.toArray, depth, t.children.length⟩

/-- The place of the child that is visited next, which may be anywhere. -/
def place (direction : Direction) (f : BareFrame α) : Int :=
  match direction with
  | .forward => f.children.size - f.remaining
  | .backward => f.remaining - 1

/-- The child that is visited next, if there is one at its place. -/
def next? (direction : Direction) (f : BareFrame α) : Option (Tree α) :=
  match f.place direction with
  | .ofNat i => f.children[i]?
  | .negSucc _ => none

/-- The frame after its next child has been taken. -/
def advance (f : BareFrame α) : BareFrame α := { f with remaining := f.remaining - 1 }

/-- The child that was taken last: the next one while the count was one higher. -/
def last? (direction : Direction) (f : BareFrame α) : Option (Tree α) :=
  { f with remaining := f.remaining + 1 }.next? direction

end BareFrame

/-- What a turn of the loop comes to: the loop ends, it goes on, or it has read a child where there
is none. -/
inductive Turn (α ε σ : Type) where
  | ended (outcome : EStateM.Result ε σ (Option (Tree α)))
  | onward (frames : List (BareFrame α)) (state : σ)
  | astray

/-- One turn of the loop. The innermost frame comes first. -/
def turn (visit : Tree α → Nat → EStateM ε σ Bool) (direction : Direction) (limit : DepthLimit) :
    List (BareFrame α) → σ → Turn α ε σ
  | [], s => .ended (.ok none s)
  | f :: outer, s =>
    if f.remaining = 0 then .onward outer s
    else
      match f.next? direction with
      | none => .astray
      | some t =>
        match visit t f.depth s with
        | .error e s' => .ended (.error e s')
        | .ok true s' => .ended (.ok (some t) s')
        | .ok false s' =>
          if limit.exceeds f.depth && !t.children.isEmpty then
            .onward (.opened t (f.depth + 1) :: f.advance :: outer) s'
          else .onward (f.advance :: outer) s'

/-- What the loop of a search holds after a number of turns: the frames and the state of the
visitor. The loop is entered when the root is not accepted and its children are to be visited. -/
inductive AtTurn (visit : Tree α → Nat → EStateM ε σ Bool) (direction : Direction)
    (limit : DepthLimit) (root : Tree α) (s : σ) : Nat → List (BareFrame α) → σ → Prop where
  | entered {s' : σ} (rejected : visit root 0 s = .ok false s')
      (deeper : limit.exceeds 0 = true) (inner : root.children ≠ []) :
      AtTurn visit direction limit root s 0 [.opened root 1] s'
  | turned {n : Nat} {frames frames' : List (BareFrame α)} {s' s'' : σ}
      (before : AtTurn visit direction limit root s n frames s')
      (onward : turn visit direction limit frames s' = .onward frames' s'') :
      AtTurn visit direction limit root s (n + 1) frames' s''

/-! ## Frames on a path -/

/-- The node whose children stand above some frames: the root above none, else the one last taken
from the uppermost of them. -/
def parent? (direction : Direction) (root : Tree α) : List (BareFrame α) → Option (Tree α)
  | [] => some root
  | f :: _ => f.last? direction

/-- A frame fits on the frames below it. -/
structure BareFrame.Fits (direction : Direction) (limit : DepthLimit) (root : Tree α)
    (f : BareFrame α) (below : List (BareFrame α)) : Prop where
  depth_eq : f.depth = below.length + 1
  within : limit.admits f.depth = true
  counted : 0 ≤ f.remaining ∧ f.remaining ≤ f.children.size
  siblings : ∃ t, parent? direction root below = some t ∧ f.children = t.children.toArray
  placed : f.remaining ≠ 0 → 0 ≤ f.place direction ∧ f.place direction < f.children.size

/-- Every frame fits on those below it. -/
def OnPath (direction : Direction) (limit : DepthLimit) (root : Tree α)
    (frames : List (BareFrame α)) : Prop :=
  ∀ f below, f :: below <:+ frames → f.Fits direction limit root below

section

variable {direction : Direction} {limit : DepthLimit} {root : Tree α}

/-- No frames are on the path. -/
theorem onPath_nil : OnPath direction limit root [] := by
  intro f below hsuffix
  simp at hsuffix

/-- Frames are on the path if the innermost one fits on the others and these are on the path. -/
theorem onPath_cons {f : BareFrame α} {outer : List (BareFrame α)} :
    OnPath direction limit root (f :: outer) ↔
      f.Fits direction limit root outer ∧ OnPath direction limit root outer := by
  constructor
  · intro h
    refine ⟨h f outer (List.suffix_refl _), ?_⟩
    intro g below hsuffix
    exact h g below (hsuffix.trans (List.suffix_cons f outer))
  · rintro ⟨hfits, houter⟩ g below hsuffix
    rcases List.suffix_cons_iff.1 hsuffix with heq | hsuffix
    · cases heq
      exact hfits
    · exact houter g below hsuffix

end

/-! ## Frames whose counts are bounded -/

namespace Frame

/-- The frame without the bound on its count. -/
def bare (f : Frame α) : BareFrame α := ⟨f.children, f.depth, f.remaining⟩

/-- A bare frame is done when the frame is. -/
@[simp]
theorem remaining_bare_eq_zero {f : Frame α} : f.bare.remaining = 0 ↔ f.remaining = 0 :=
  Int.natCast_eq_zero

/-- The bare frame of fresh children is one that has just been opened. -/
theorem bare_ofChildren (t : Tree α) (depth : Nat) :
    (ofChildren t.children depth).bare = .opened t depth := by
  simp [bare, ofChildren, BareFrame.opened]

/-- The bare frame goes on as the frame does. -/
theorem bare_advance {f : Frame α} (h : 0 < f.remaining) : f.advance.bare = f.bare.advance := by
  simp only [bare, advance, BareFrame.advance]
  congr 1
  omega

/-- The place that a bare frame is at is the index of the next child. -/
theorem place_bare (direction : Direction) {f : Frame α} (h : 0 < f.remaining) :
    f.bare.place direction = (f.index direction : Nat) := by
  have hle := f.remaining_le
  cases direction with
  | forward =>
    simp only [BareFrame.place, bare, index]
    omega
  | backward =>
    simp only [BareFrame.place, bare, index]
    omega

/-- The next child of a bare frame is that of the frame. -/
theorem next?_bare (direction : Direction) {f : Frame α} (h : 0 < f.remaining) :
    f.bare.next? direction = some (f.next direction h) := by
  have hlt := f.index_lt direction h
  rw [BareFrame.next?, place_bare direction h]
  exact Array.getElem?_eq_getElem hlt

/-- The child that a bare frame has handed out last is the one that was next before. -/
theorem last?_advance (direction : Direction) {f : Frame α} (h : 0 < f.remaining) :
    f.advance.bare.last? direction = some (f.next direction h) := by
  rw [← next?_bare direction h, bare_advance h, BareFrame.last?, BareFrame.advance]
  simp

/-- A bounded frame fits wherever its depth and its children do. -/
theorem fits_bare {direction : Direction} {limit : DepthLimit} {root : Tree α} (f : Frame α)
    {below : List (BareFrame α)} (depth_eq : f.depth = below.length + 1)
    (within : limit.admits f.depth = true)
    (siblings : ∃ t, parent? direction root below = some t ∧ f.children = t.children.toArray) :
    f.bare.Fits direction limit root below := by
  have hle := f.remaining_le
  have hcounted : 0 ≤ f.bare.remaining ∧ f.bare.remaining ≤ f.bare.children.size := by
    simp only [bare]
    omega
  refine ⟨depth_eq, within, hcounted, siblings, ?_⟩
  intro hne
  have hpos : 0 < f.remaining := by
    rw [Ne, remaining_bare_eq_zero] at hne
    omega
  have hlt := f.index_lt direction hpos
  rw [place_bare direction hpos]
  simp only [bare]
  omega

end Frame

/-! ## What one turn does -/

/-- How the frames change when the loop goes on: the innermost one is closed when nothing is left of
it, else its next child is taken, which is opened or not. -/
inductive Advances (direction : Direction) (limit : DepthLimit) :
    List (Frame α) → List (Frame α) → Prop where
  | closed {f : Frame α} {outer : List (Frame α)} (done : f.remaining = 0) :
      Advances direction limit (f :: outer) outer
  | passed {f : Frame α} {outer : List (Frame α)} (h : 0 < f.remaining) :
      Advances direction limit (f :: outer) (f.advance :: outer)
  | opened {f : Frame α} {outer : List (Frame α)} (h : 0 < f.remaining)
      (deeper : limit.exceeds f.depth = true) :
      Advances direction limit (f :: outer)
        (.ofChildren (f.next direction h).children (f.depth + 1) :: f.advance :: outer)

section

variable {direction : Direction} {limit : DepthLimit} {root : Tree α}
variable {frames frames' : List (Frame α)}

/-- A node opened within the limit puts a frame on those that lead to it. -/
theorem onPath_ofChildren {t : Tree α} {below : List (BareFrame α)} {depth : Nat}
    (hdepth : depth = below.length) (deeper : limit.exceeds depth = true)
    (hparent : parent? direction root below = some t)
    (hbelow : OnPath direction limit root below) :
    OnPath direction limit root ((Frame.ofChildren t.children (depth + 1)).bare :: below) := by
  have hwithin : limit.admits (depth + 1) = true := by
    rw [← limit.exceeds_eq]
    exact deeper
  apply onPath_cons.2
  refine ⟨Frame.fits_bare _ ?_ hwithin ⟨t, hparent, rfl⟩, hbelow⟩
  show depth + 1 = _
  rw [hdepth]

/-- A turn of the search keeps the frames on the path. -/
theorem Advances.keepsPath (h : Advances direction limit frames frames')
    (hpath : OnPath direction limit root (frames.map Frame.bare)) :
    OnPath direction limit root (frames'.map Frame.bare) := by
  have hadvance : ∀ {f : Frame α} {outer : List (Frame α)},
      OnPath direction limit root ((f :: outer).map Frame.bare) →
        OnPath direction limit root ((f.advance :: outer).map Frame.bare) := by
    intro f outer hpath
    obtain ⟨hfits, houter⟩ := onPath_cons.1 hpath
    apply onPath_cons.2
    exact ⟨f.advance.fits_bare hfits.depth_eq hfits.within hfits.siblings, houter⟩
  cases h with
  | closed done => exact (onPath_cons.1 hpath).2
  | passed h => exact hadvance hpath
  | @opened f outer h deeper =>
    have hdepth := (onPath_cons.1 hpath).1.depth_eq
    exact onPath_ofChildren hdepth deeper (f.last?_advance direction h) (hadvance hpath)

/-- The loop leaves less work than it finds. -/
theorem Advances.pendingWeight_lt (h : Advances direction limit frames frames') :
    pendingWeight direction frames' < pendingWeight direction frames := by
  cases h with
  | closed done =>
    simp only [pendingWeight, List.foldr_cons, Frame.weight]
    omega
  | @passed f outer h =>
    have hweight := f.weight_advance direction h
    have hsize := size_eq (f.next direction h)
    simp only [pendingWeight, List.foldr_cons]
    omega
  | @opened f outer h deeper =>
    have hweight := f.weight_advance direction h
    have hsize := size_eq (f.next direction h)
    simp only [pendingWeight, List.foldr_cons, Frame.weight_ofChildren]
    omega

end

/-- A turn over bounded frames ends the loop with what the search finds in them, or goes on with
bounded frames in which the search finds the same. -/
theorem turn_bare (visit : Tree α → Nat → EStateM ε σ Bool) (direction : Direction)
    (limit : DepthLimit) (frames : List (Frame α)) (s : σ) :
    turn visit direction limit (frames.map Frame.bare) s =
        .ended (searchFrames visit direction limit frames s) ∨
      ∃ frames' s', Advances direction limit frames frames' ∧
        turn visit direction limit (frames.map Frame.bare) s =
          .onward (frames'.map Frame.bare) s' ∧
        searchFrames visit direction limit frames s =
          searchFrames visit direction limit frames' s' := by
  cases frames with
  | nil =>
    left
    rw [searchFrames]
    rfl
  | cons f outer =>
    rw [List.map_cons, turn, searchFrames]
    by_cases h : 0 < f.remaining
    · have hne : f.bare.remaining ≠ 0 := by
        rw [Ne, Frame.remaining_bare_eq_zero]
        omega
      rw [if_neg hne, dif_pos h, Frame.next?_bare direction h]
      have hdepth : f.bare.depth = f.depth := rfl
      simp only [hdepth]
      cases hvisit : visit (f.next direction h) f.depth s with
      | error e s' =>
        left
        rfl
      | ok accepted s' =>
        cases accepted with
        | true =>
          left
          rfl
        | false =>
          right
          simp only [← Frame.bare_advance h, ← Frame.bare_ofChildren]
          split
          next hopen =>
            simp only [Bool.and_eq_true] at hopen
            exact ⟨_, s', .opened h hopen.1, rfl, rfl⟩
          next => exact ⟨_, s', .passed h, rfl, rfl⟩
    · have hzero : f.remaining = 0 := by omega
      right
      rw [if_pos (Frame.remaining_bare_eq_zero.2 hzero), dif_neg h]
      exact ⟨outer, s, .closed hzero, rfl, rfl⟩

/-! ## Whole runs -/

section

variable {visit : Tree α → Nat → EStateM ε σ Bool} {direction : Direction} {limit : DepthLimit}

/-- At the head of each turn the frames are bounded and lie on a path, what the search finds in them
is what it finds in the whole tree, and the turns made and the work left are bounded together. -/
theorem AtTurn.exists_frames {root : Tree α} {s s' : σ} {n : Nat} {bares : List (BareFrame α)}
    (h : AtTurn visit direction limit root s n bares s') :
    ∃ frames : List (Frame α), bares = frames.map Frame.bare ∧
      OnPath direction limit root bares ∧
      searchFrames visit direction limit frames s' = search visit direction limit root s ∧
      n + pendingWeight direction frames < 2 * root.size := by
  induction h with
  | entered rejected deeper inner =>
    refine ⟨[Frame.ofChildren root.children 1], ?_, ?_, ?_, ?_⟩
    · simp [Frame.bare_ofChildren]
    · rw [← Frame.bare_ofChildren]
      exact onPath_ofChildren rfl deeper rfl onPath_nil
    · simp [search, bind, EStateM.bind, rejected, deeper, inner]
    · have hsize := size_eq root
      simp only [pendingWeight, List.foldr_cons, List.foldr_nil, Frame.weight_ofChildren]
      omega
  | turned before onward ih =>
    obtain ⟨frames, rfl, hpath, hsearch, hweight⟩ := ih
    rcases turn_bare visit direction limit frames _ with
      hended | ⟨frames', s', hadvances, hturn, hsame⟩
    · rw [hended] at onward
      cases onward
    · rw [hturn] at onward
      cases onward
      have hlt := hadvances.pendingWeight_lt
      refine ⟨frames', rfl, hadvances.keepsPath hpath, ?_, by omega⟩
      rw [← hsame, hsearch]

/-- From every turn the loop comes to its end, with the outcome of the search. -/
theorem AtTurn.exists_end {root : Tree α} {s s' : σ} {n : Nat} {bares : List (BareFrame α)}
    (h : AtTurn visit direction limit root s n bares s') :
    ∃ m bares' s'', n ≤ m ∧ m < 2 * root.size ∧
      AtTurn visit direction limit root s m bares' s'' ∧
      turn visit direction limit bares' s'' =
        .ended (search visit direction limit root s) := by
  -- The induction is on the number of turns that the bound still allows.
  induction hleft : 2 * root.size - n generalizing n bares s' with
  | zero =>
    obtain ⟨frames, -, -, -, hweight⟩ := h.exists_frames
    omega
  | succ left ih =>
    obtain ⟨frames, rfl, -, hsearch, hweight⟩ := h.exists_frames
    rcases turn_bare visit direction limit frames s' with
      hended | ⟨frames', s'', -, hturn, -⟩
    · rw [hsearch] at hended
      exact ⟨n, _, s', Nat.le_refl n, by omega, h, hended⟩
    · obtain ⟨m, bares', state, hle, hbound, hlater, hend⟩ := ih (h.turned hturn) (by omega)
      exact ⟨m, bares', state, by omega, hbound, hlater, hend⟩

end

/-- The loop of a search is safe and ends. At the head of each turn it holds the frames of the
search, every frame fits on those below it, and no child is read where there is none. After fewer
turns than twice the nodes of the tree the loop has ended, with the outcome of the search. -/
theorem searchWithin_stays_on_path (visit : Tree α → Nat → EStateM Failure σ Bool)
    (direction : Direction) {number : Number} {limit : DepthLimit}
    (hlimit : DepthLimit.Stated number limit) (root : Tree α) (s : σ) {n : Nat}
    {bares : List (BareFrame α)} {s' : σ}
    (h : AtTurn visit direction limit root s n bares s') :
    (∃ frames : List (Frame α), bares = frames.map Frame.bare ∧
      searchFrames visit direction limit frames s' =
        searchWithin visit direction number root s) ∧
    OnPath direction limit root bares ∧
    turn visit direction limit bares s' ≠ .astray ∧
    ∃ m bares' s'', n ≤ m ∧ m < 2 * root.size ∧
      AtTurn visit direction limit root s m bares' s'' ∧
      turn visit direction limit bares' s'' =
        .ended (searchWithin visit direction number root s) := by
  have hwithin : searchWithin visit direction number root = search visit direction limit root := by
    simp only [searchWithin, DepthLimit.ofNumber_of_stated hlimit]
  rw [hwithin]
  obtain ⟨frames, rfl, hpath, hsearch, -⟩ := h.exists_frames
  refine ⟨⟨frames, rfl, hsearch⟩, hpath, ?_, h.exists_end⟩
  intro hastray
  rcases turn_bare visit direction limit frames s' with
    hended | ⟨frames', s'', -, hturn, -⟩
  · rw [hended] at hastray
    cases hastray
  · rw [hturn] at hastray
    cases hastray

/-- From right to left and two levels deep: after one turn there are two frames, the upper one with
the only child of the node just taken from the lower one, and the search goes through four nodes in
vain. -/
theorem twoFrames_on_path :
    let visit : Tree Nat → Nat → EStateM Failure Nat Bool := fun _ _ calls => .ok false (calls + 1)
    let root : Tree Nat := .node 0 [.node 1 [], .node 2 [.node 3 [.node 4 []]]]
    let frames : List (BareFrame Nat) :=
      [⟨#[.node 3 [.node 4 []]], 2, 1⟩, ⟨#[.node 1 [], .node 2 [.node 3 [.node 4 []]]], 1, 1⟩]
    AtTurn visit .backward (.atMost 2) root 0 1 frames 2 ∧
      OnPath .backward (.atMost 2) root frames ∧
      turn visit .backward (.atMost 2) frames 2 ≠ .astray ∧
      ∃ m frames' calls, m < 10 ∧ AtTurn visit .backward (.atMost 2) root 0 m frames' calls ∧
        turn visit .backward (.atMost 2) frames' calls = .ended (.ok none 4) := by
  intro visit root frames
  have hturn : AtTurn visit .backward (.atMost 2) root 0 1 frames 2 :=
    .turned (.entered rfl rfl (by simp [root, children])) rfl
  have houtcome : searchWithin visit .backward (Number.ofNat 2) root 0 = .ok none 4 := by
    rw [searchWithin_of_stated (.atMost 2)]
    rfl
  obtain ⟨-, hpath, hread, m, frames', calls, -, hbound, hlater, hend⟩ :=
    searchWithin_stays_on_path visit .backward (.atMost 2) root 0 hturn
  rw [houtcome] at hend
  exact ⟨hturn, hpath, hread, m, frames', calls, hbound, hlater, hend⟩

end

end Tree

end TreeInspector
