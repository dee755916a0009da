import TreeInspector.Proofs.Scenario.Stage
import TreeInspector.Proofs.Session.OneEach

/-!
# Hosts that enable and disable

A call of a host may itself take steps, whose calls may take steps in turn, and so on. What can go
wrong by this is one thing only: the host enables a source while the same source is being enabled.
Then the source has two sessions, and the registry knows one of them.
-/

set_option autoImplicit false

namespace TreeInspector

section

variable {H C : Type} {host : Host H C} {w w' : World H C}

/-- What may happen in a world: a step that is allowed there, taken with some host, or a change of
the host and the client on their own. -/
inductive World.Visit (may : Host H C → Step → World H C → Prop) :
    World H C → World H C → Prop where
  | aside {w : World H C} {h : H} {c : C} : World.Visit may w (w.beside h c)
  | step {w : World H C} {host : Host H C} {step : Step} (allowed : may host step w) :
      World.Visit may w ((step.run host).outcome w).2

/-- What may happen one after another. -/
def World.Visits (may : Host H C → Step → World H C → Prop) : World H C → World H C → Prop :=
  Relation.ReflTransGen (World.Visit may)

/-- The host calls back to any depth up to the given one: the calls of a host of depth zero do not
call back, and those of deeper ones take allowed steps, one after another, with hosts less deep. -/
def Host.Nests (allowed : Host H C → Step → World H C → Prop) : Nat → Host H C → Prop
  | 0, host => host.Stays (World.Visits fun _ _ _ => False)
  | n + 1, host => host.Stays (World.Visits fun inner step w =>
      inner.Nests allowed n ∧ allowed inner step w)

/-- The step does not give a source a second session, at least if every source has one at most. -/
def Step.Polite (host : Host H C) (step : Step) (w : World H C) : Prop :=
  w.OneEach → ¬step.Crowds host w

/-- Visits keep a world if each of them does. -/
theorem World.Visits.kept {may : Host H C → Step → World H C → Prop}
    (hmay : ∀ {host step} {w : World H C}, may host step w →
      host.Stays World.Kept ∧ step.Polite host w)
    (visits : w.Visits may w') : w.Kept w' := by
  induction visits with
  | refl => exact World.passage_kept.refl w
  | @tail w₁ w₂ _ visit ih =>
    refine World.passage_kept.trans ih ?_
    cases visit with
    | aside => exact World.kept_of_same rfl rfl
    | @step host step allowed =>
      obtain ⟨hhost, hpolite⟩ := hmay allowed
      have hunless := Action.Ensures.outcome (P := fun _ w' => w₁.KeptUnless _ w')
        (step.run_keptUnless hhost)
      exact hunless.kept hpolite

/-- Hosts that call back, to any depth, with nothing but polite steps keep worlds in order. -/
theorem Host.Nests.stays (n : Nat) :
    ∀ {host : Host H C}, host.Nests Step.Polite n → host.Stays World.Kept := by
  induction n with
  | zero => exact fun h => Host.Stays.mono h fun _ _ visits => visits.kept fun hnever => hnever.elim
  | succ n ih =>
    exact fun h => Host.Stays.mono h fun _ _ visits => visits.kept fun hmay => ⟨ih hmay.1, hmay.2⟩

/-- In a run with hosts that call back to any depth, as long as no step gives a source a second
session, no source has two sessions, and if it has one, that one is in charge. The next step keeps
it so exactly if it does not give a source a second session. -/
theorem World.Visits.keeps_one_each {w₀ : World H C} (hfresh : w₀.sessions = [])
    (visits : w₀.Visits (fun host step w => (∃ n, host.Nests Step.Polite n) ∧ step.Polite host w) w)
    {n : Nat} (hhost : host.Nests Step.Polite n) (step : Step) :
    w.OneEach ∧ (((step.run host).outcome w).2.OneEach ↔ ¬step.Crowds host w) := by
  have hstart : w₀.OneEach := by
    rw [World.oneEach_iff]
    intro i st hst
    rw [show w₀.standing? i = none from World.seen_of_empty hfresh] at hst
    cases hst
  have hw : w.OneEach := by
    refine (visits.kept fun hmay => ?_).oneEach hstart
    obtain ⟨⟨m, hnests⟩, hpolite⟩ := hmay
    exact ⟨Host.Nests.stays m hnests, hpolite⟩
  have hunless := Action.Ensures.outcome (P := fun _ w' => w.KeptUnless (step.Crowds host w) w')
    (step.run_keptUnless (Host.Nests.stays n hhost))
  refine ⟨hw, fun hone hcrowds => hunless.notOneEach hw hcrowds hone, fun hnot => ?_⟩
  exact (hunless.kept fun _ => hnot).oneEach hw

/-- Visits may follow visits. -/
theorem World.passage_visits (may : Host H C → Step → World H C → Prop) :
    World.Passage (World.Visits may) where
  refl _ := .refl
  trans h₁ h₂ := h₁.trans h₂

/-- A host that does not call back does not crowd sources. -/
theorem Host.Nests.polite {allowed : Host H C → Step → World H C → Prop}
    (hhost : host.Nests allowed 0) (step : Step) (w : World H C) : step.Polite host w := by
  intro hw hcrowds
  -- Up to where the new session is bound, only that session has been added.
  have hpassage : World.Passage fun w w' : World H C => w'.sessions = w.sessions :=
    ⟨fun _ => rfl, fun h₁ h₂ => h₂.trans h₁⟩
  have hstays : host.Stays fun w w' => w'.sessions = w.sessions := by
    refine Host.Stays.mono hhost fun w w' visits => ?_
    induction visits with
    | refl => rfl
    | tail _ visit ih =>
      cases visit with
      | aside => exact ih
      | step allowed => exact allowed.elim
  cases step with
  | announce => exact hcrowds
  | dispose => exact hcrowds
  | call c =>
    cases c with
    | enable source settings =>
      obtain ⟨hfree, hshares⟩ := hcrowds
      have hopening := Registry.opening_ensures (w := w) hpassage hstays source settings
      cases hrun : Registry.opening host source settings w with
      | error e w' => exact (Action.ensures_of_error hrun).1 hshares
      | ok id w' =>
        rw [Action.ensures_of_ok hrun] at hshares hopening
        obtain ⟨rfl, w₁, binding, h, c, hsame, rfl⟩ := hopening
        obtain ⟨other, s, hne, ⟨hs, hactive⟩, hregistered, rfl⟩ := hshares
        have hs₁ : w₁.sessions[other]? = some s := by
          rw [← hs]
          exact ((World.getElem?_modifySession _ _ _ _).trans (if_neg (Ne.symm hne))).symm
        rw [hsame, World.withSession] at hs₁
        have hlt : other < w.sessions.length := by
          have hle := (List.getElem?_eq_some_iff.1 hs₁).1
          rw [List.length_append, List.length_singleton] at hle
          exact Nat.lt_of_le_of_ne (Nat.le_of_lt_succ hle) hne
        rw [List.getElem?_append_left hlt] at hs₁
        have hcharge := hw.inCharge ⟨hs₁, hactive⟩ hregistered
        rw [hfree] at hcharge
        cases hcharge
    | _ => exact hcrowds

end

/-! ## A host that enables a source while another is enabled -/

namespace Scenario.Stage

section

variable {R : World Stage (Roster StageStep) → World Stage (Roster StageStep) → Prop}
  {run : StageStep → StageAct Unit}

/-- Looking for a source of the stage stays in the relation. -/
theorem findSource_stays (hR : World.Passage R) (id : SourceId) : (findSource id).Stays R := by
  refine hR.bind hR.readHost fun d => ?_
  split
  · exact hR.pure _
  · exact hR.throw _

variable (hR : World.Passage R) (haside : ∀ f, (Action.modifyHost f : StageAct Unit).Stays R)
  (hrun : ∀ step, (run step).Stays R)

include hR haside hrun

/-- Passing a point of the stage stays in the relation if what is hooked to it does. -/
theorem reach_stays (point : Point) : (reach run point).Stays R := by
  have hfails : (do
      let d ← Action.host
      if point ∈ d.failing then
        let message := "host failure in " ++ point.name
        throw (if d.bare then .bare message else .raised message) : StageAct Unit).Stays R := by
    refine hR.bind hR.readHost fun d => ?_
    split
    · exact hR.throw _
    · exact hR.pure ()
  refine hR.bind hR.readHost fun d => ?_
  cases d.hooks.find? fun h => h.1 = point with
  | none => exact hfails
  | some hook => exact hR.bind (haside _) fun _ => hR.bind (hrun hook.2) fun _ => hfails

/-- Ending a subscription stays in the relation if what is hooked to it does. -/
theorem unsubscribe_stays (sub : SubscriptionId) : (unsubscribe run sub).Stays R := by
  refine hR.bind hR.readHost fun d => ?_
  split
  · exact hR.pure ()
  · split
    · exact hR.pure ()
    · refine hR.bind (haside _) fun _ => hR.bind (haside _) fun _ =>
        hR.bind (reach_stays hR haside hrun _) fun _ => hR.bind hR.readHost fun d => ?_
      split
      · exact haside _
      · exact hR.pure ()

/-- The stage stays in a relation that allows for what is hooked to its calls. -/
theorem host_stays : (host run).Stays R where
  tree source := hR.bind (haside _) fun _ => hR.bind (reach_stays hR haside hrun _) fun _ =>
    hR.bind (findSource_stays hR source) fun _ => hR.pure _
  subscribe _ _ _ := hR.bind (haside _) fun _ =>
    hR.bind (reach_stays hR haside hrun _) fun _ => hR.bind hR.readHost fun _ =>
      hR.bind (haside _) fun _ => hR.bind (haside _) fun _ => hR.pure _
  unsubscribe := unsubscribe_stays hR haside hrun
  isAvailable source := hR.bind (reach_stays hR haside hrun _) fun _ =>
    hR.bind (findSource_stays hR source) fun _ => hR.pure _
  sourceName source := hR.bind (reach_stays hR haside hrun _) fun _ =>
    hR.bind (findSource_stays hR source) fun _ => hR.pure _
  createView _ := hR.bind (haside _) fun _ => hR.bind (reach_stays hR haside hrun _) fun _ =>
    hR.bind hR.readHost fun _ => hR.bind (haside _) fun _ => hR.pure _
  showLines _ lines := hR.bind (haside _) fun _ =>
    hR.bind (hR.forM (fun _ => haside _) lines) fun _ =>
      hR.bind (reach_stays hR haside hrun _) fun _ => haside _
  destroyView _ := hR.bind (haside _) fun _ =>
    hR.bind (reach_stays hR haside hrun _) fun _ => haside _
  focus source _ _ := hR.bind (findSource_stays hR source) fun _ =>
    hR.bind (haside _) fun _ => reach_stays hR haside hrun _
  log message w := ⟨_, w.client, rfl,
    haside (fun d => if d.silent then d else { d with log := d.log ++ [message] }) w⟩

end

/-- The quiet stage does not call back. -/
theorem quiet_nests (allowed : Host Stage (Roster StageStep) → Step →
    World Stage (Roster StageStep) → Prop) : quiet.Nests allowed 0 :=
  host_stays (World.passage_visits _) (fun _ _ => .single .aside) fun _ =>
    (World.passage_visits _).pure ()

/-- The stage that, whatever is hooked to a call, enables the given source instead. -/
def eager (source : SourceId) : Host Stage (Roster StageStep) :=
  host fun _ => Step.run quiet (.call (.enable source {}))

/-- The stage that only enables a source calls back to depth one. -/
theorem eager_nests {allowed : Host Stage (Roster StageStep) → Step →
    World Stage (Roster StageStep) → Prop} (source : SourceId)
    (hallowed : ∀ w, allowed quiet (.call (.enable source {})) w) :
    (eager source).Nests allowed 1 := by
  refine host_stays (World.passage_visits _) (fun _ _ => .single .aside) fun _ =>
    Action.stays_iff.2 fun w => ?_
  exact .single (.step ⟨quiet_nests allowed, hallowed w⟩)

/-- Something is hooked to the call that makes a view. -/
def hooked : World Stage (Roster StageStep) where
  host := { pair with hooks := [(.createView, .views)] }
  client := {}

/-- Although another view was opened while the first one was, each source has one active session. -/
theorem hooked_oneEach :
    ((Step.run (eager 1) (.call (.enable 0 {}))).outcome hooked).2.registry = [(1, 1), (0, 0)] ∧
      ((Step.run (eager 1) (.call (.enable 0 {}))).outcome hooked).2.OneEach := by
  have hnests : (eager 1).Nests Step.Polite 1 :=
    eager_nests 1 fun w => (quiet_nests Step.Polite).polite _ w
  have hstart : hooked.Visits
      (fun host step w => (∃ n, host.Nests Step.Polite n) ∧ step.Polite host w) hooked :=
    .refl
  have hone := World.Visits.keeps_one_each rfl hstart hnests (.call (.enable 0 {}))
  refine ⟨by decide +kernel, hone.2.2 ?_⟩
  rintro ⟨-, hshares⟩
  obtain ⟨id, hid, other, s, hne, ⟨hs, -⟩, -, hsource⟩ :=
    Action.Ensures.outcome (P := fun r w₁ => ∃ id, r = .ok id ∧ w₁.Shares 0 id)
      (hshares.mono (fun id _ h => ⟨id, rfl, h⟩) (fun _ _ h => h.elim))
  have hfirst : ((Registry.opening (eager 1) 0 {}).outcome hooked).1 = .ok 0 := by decide +kernel
  have hsources : ((Registry.opening (eager 1) 0 {}).outcome hooked).2.sessions.map (·.source) =
      [0, 1] := by
    decide +kernel
  have hother : ([0, 1] : List SourceId)[other]? = some 0 := by
    rw [← hsources, List.getElem?_map, hs, Option.map_some, hsource]
  rw [hfirst] at hid
  cases hid
  match other, hne, hother with
  | 1, _, h => cases h

/-- The view of the first source is opened twice, the second time while its view is made. -/
theorem two_for_one_source :
    ¬∀ w₀ w : World Stage (Roster StageStep), w₀.sessions = [] → w₀.registry = [] →
      w₀.Visits (fun host _ _ => ∃ n, host.Nests (fun _ _ _ => True) n) w → w.OneEach := by
  intro hclaim
  have hvisits : hooked.Visits (fun host _ _ => ∃ n, host.Nests (fun _ _ _ => True) n)
      ((Step.run (eager 0) (.call (.enable 0 {}))).outcome hooked).2 :=
    .single (.step ⟨1, eager_nests 0 fun _ => trivial⟩)
  have hsecond : ((Step.run (eager 0) (.call (.enable 0 {}))).outcome hooked).2.sessions[1]?.map
      (fun s => (s.state, s.registered, s.source)) = some (.active, true, 0) := by
    decide +kernel
  obtain ⟨s, hs, hsame⟩ := Option.map_eq_some_iff.1 hsecond
  simp only [Prod.mk.injEq] at hsame
  have hcharge := (hclaim _ _ rfl rfl hvisits).inCharge ⟨hs, hsame.1⟩ hsame.2.1
  have hfirst : ((Step.run (eager 0) (.call (.enable 0 {}))).outcome hooked).2.sessionFor? 0 =
      some 0 := by
    decide +kernel
  rw [hsame.2.2, hfirst] at hcharge
  cases hcharge

end Scenario.Stage

end TreeInspector
