import TreeInspector.Document.Analysis
import TreeInspector.Proofs.Document.Lexemes
import TreeInspector.Proofs.Tree.Nesting

/-!
# The grammar of elements

However broken a text is, the elements the parser makes of it keep to the grammar: objects hold
properties, properties a name and at most one value, arrays values, and nothing else holds anything.
As long as no fault is reported nothing is missing either, and the text has a root if it has any
value at all.

The invariant ties the open elements to the phase of the parser. An element around another one can
take a value. The innermost one has a property that waits for its value if the parser is about to
take a colon or a value, and none if it is about to take an item. A property is given up only while
the parser skips, and by then there is a fault.
-/

set_option autoImplicit false

namespace TreeInspector

namespace Tree

section

variable {α β : Type} {P Q : Tree α → Prop} {t s : Tree α}

/-- Every subtree has a property, the tree itself included. -/
inductive Throughout (P : Tree α → Prop) : Tree α → Prop where
  | node {a : α} {cs : List (Tree α)} (here : P (.node a cs)) (each : ∀ c ∈ cs, Throughout P c) :
      Throughout P (.node a cs)

/-- What holds throughout a tree holds of the tree itself. -/
theorem Throughout.here (h : t.Throughout P) : P t := by
  cases h with
  | node here each => exact here

/-- What holds throughout a tree holds throughout each child. -/
theorem Throughout.each (h : t.Throughout P) : ∀ c ∈ t.children, c.Throughout P := by
  cases h with
  | node here each => exact each

/-- What holds throughout a tree may be weakened. -/
theorem Throughout.imp (hPQ : ∀ s, P s → Q s) (h : t.Throughout P) : t.Throughout Q := by
  induction h with
  | node here each ih => exact .node (hPQ _ here) ih

/-- What holds throughout a tree holds of the subtree at any place. -/
theorem Throughout.of_subtree (h : t.Throughout P) {place : List Nat}
    (hs : t.subtree? place = some s) : P s := by
  induction place generalizing t with
  | nil =>
    cases hs
    exact h.here
  | cons i place ih =>
    obtain ⟨c, hc, hbelow⟩ := subtree?_cons_eq_some_iff.1 hs
    exact ih (h.each c (List.mem_of_getElem? hc)) hbelow

/-- The children of a mapped tree are the mapped children. -/
theorem children_map (f : α → β) (t : Tree α) : (t.map f).children = t.children.map (map f) := by
  cases t with
  | node a cs => rw [map, children, children, maps_eq]

/-- The subtree at a place of a mapped tree is the mapped subtree. -/
theorem subtree?_map (f : α → β) (t : Tree α) (place : List Nat) :
    (t.map f).subtree? place = (t.subtree? place).map (map f) := by
  induction place generalizing t with
  | nil => rfl
  | cons i place ih =>
    rw [subtree?, subtree?, children_map, List.getElem?_map]
    cases t.children[i]? with
    | none => rfl
    | some c => exact ih c

end

end Tree

namespace Document

/-! ## Finished elements -/

/-- A value without parts. -/
def ElementKind.isScalar : ElementKind → Bool
  | .string _ | .number | .boolean _ | .null => true
  | .object | .array | .property => false

/-- What an element of each kind holds. The value of a property may be missing unless everything
must be complete. -/
inductive Holds (complete : Prop) : ElementKind → List (Tree Element) → Prop where
  | members {ts : List (Tree Element)} (properties : ∀ t ∈ ts, t.value.kind = .property) :
      Holds complete .object ts
  | items {ts : List (Tree Element)} (values : ∀ t ∈ ts, t.value.kind ≠ .property) :
      Holds complete .array ts
  | pair {name : Element} {text : List CodeUnit} {v : Tree Element}
      (name_kind : name.kind = .string text) (value_kind : v.value.kind ≠ .property) :
      Holds complete .property [.node name [], v]
  | nameOnly {name : Element} {text : List CodeUnit} (incomplete : ¬complete)
      (name_kind : name.kind = .string text) : Holds complete .property [.node name []]
  | nothing {kind : ElementKind} (scalar : kind.isScalar = true) : Holds complete kind []

/-- An element and all below it keep to the grammar. -/
def Lawful (complete : Prop) (t : Tree Element) : Prop :=
  t.Throughout fun s => Holds complete s.value.kind s.children

/-- A value that keeps to the grammar. -/
structure IsValue (complete : Prop) (t : Tree Element) : Prop where
  lawful : Lawful complete t
  kind : t.value.kind ≠ .property

/-- A property that keeps to the grammar. -/
structure IsMember (complete : Prop) (t : Tree Element) : Prop where
  lawful : Lawful complete t
  kind : t.value.kind = .property

section

variable {complete complete' : Prop} {kind : ElementKind} {t : Tree Element}
  {ts : List (Tree Element)} {name : Element} {text : List CodeUnit} {start stop : Nat}

/-- What an element holds suits it where less must be complete. -/
theorem Holds.mono (h : Holds complete kind ts) (hle : complete' → complete) :
    Holds complete' kind ts := by
  cases h with
  | members properties => exact .members properties
  | items values => exact .items values
  | pair name_kind value_kind => exact .pair name_kind value_kind
  | nameOnly incomplete name_kind => exact .nameOnly (mt hle incomplete) name_kind
  | nothing scalar => exact .nothing scalar

/-- An object holds properties. -/
theorem Holds.of_object (h : Holds complete .object ts) : ∀ t ∈ ts, t.value.kind = .property := by
  cases h with
  | members properties => exact properties
  | nothing scalar => simp

/-- An array holds values. -/
theorem Holds.of_array (h : Holds complete .array ts) : ∀ t ∈ ts, t.value.kind ≠ .property := by
  cases h with
  | items values => exact values
  | nothing scalar => simp

/-- A property holds its name and, unless it is incomplete, one value. -/
theorem Holds.of_property (h : Holds complete .property ts) :
    ∃ name text, name.kind = .string text ∧
      (¬complete ∧ ts = [.node name []] ∨
        ∃ v : Tree Element, v.value.kind ≠ .property ∧ ts = [.node name [], v]) := by
  cases h with
  | pair name_kind value_kind => exact ⟨_, _, name_kind, .inr ⟨_, value_kind, rfl⟩⟩
  | nameOnly incomplete name_kind => exact ⟨_, _, name_kind, .inl ⟨incomplete, rfl⟩⟩
  | nothing scalar => simp [ElementKind.isScalar] at scalar

/-- A scalar holds nothing. -/
theorem Holds.of_isScalar (h : Holds complete kind ts) (hkind : kind.isScalar = true) :
    ts = [] := by
  cases h with
  | nothing scalar => rfl
  | _ => simp [ElementKind.isScalar] at hkind

/-- An element that keeps to the grammar does so where less must be complete. -/
theorem Lawful.mono (h : Lawful complete t) (hle : complete' → complete) : Lawful complete' t :=
  h.imp fun _ hs => hs.mono hle

/-- A value that keeps to the grammar does so where less must be complete. -/
theorem IsValue.mono (h : IsValue complete t) (hle : complete' → complete) : IsValue complete' t :=
  ⟨h.lawful.mono hle, h.kind⟩

/-- A property that keeps to the grammar does so where less must be complete. -/
theorem IsMember.mono (h : IsMember complete t) (hle : complete' → complete) :
    IsMember complete' t :=
  ⟨h.lawful.mono hle, h.kind⟩

/-- A scalar is a value that keeps to the grammar. -/
theorem isValue_scalar (hkind : kind.isScalar = true) :
    IsValue complete (.node ⟨kind, start, stop⟩ []) := by
  refine ⟨.node (.nothing hkind) (by simp), ?_⟩
  intro hproperty
  simp only [Tree.value] at hproperty
  simp [hproperty, ElementKind.isScalar] at hkind

/-- An array of such values is such a value. -/
theorem isValue_array (h : ∀ t ∈ ts, IsValue complete t) :
    IsValue complete (.node ⟨.array, start, stop⟩ ts) :=
  ⟨.node (.items fun t ht => (h t ht).kind) fun t ht => (h t ht).lawful, by simp [Tree.value]⟩

/-- An object of such properties is such a value. -/
theorem isValue_object (h : ∀ t ∈ ts, IsMember complete t) :
    IsValue complete (.node ⟨.object, start, stop⟩ ts) :=
  ⟨.node (.members fun t ht => (h t ht).kind) fun t ht => (h t ht).lawful, by simp [Tree.value]⟩

/-- The name of a property keeps to the grammar. -/
theorem lawful_name (hname : name.kind = .string text) : Lawful complete (.node name []) := by
  refine .node (.nothing ?_) (by simp)
  rw [Tree.value, hname]
  rfl

/-- A name with a value makes a property that keeps to the grammar. -/
theorem isMember_pair (hname : name.kind = .string text) (ht : IsValue complete t) :
    IsMember complete (OpenElement.property name [t] stop) := by
  refine ⟨.node (.pair hname ht.kind) ?_, rfl⟩
  intro c hc
  rcases List.mem_pair.1 hc with rfl | rfl
  · exact lawful_name hname
  · exact ht.lawful

/-- A name alone makes such a property where not everything must be complete. -/
theorem isMember_nameOnly (hname : name.kind = .string text) (hincomplete : ¬complete) :
    IsMember complete (OpenElement.property name [] stop) := by
  refine ⟨.node (.nameOnly hincomplete hname) ?_, rfl⟩
  intro c hc
  rw [List.mem_singleton] at hc
  subst hc
  exact lawful_name hname

end

/-! ## Open elements -/

namespace OpenElement

/-- The parts of an open element keep to the grammar. -/
inductive Lawful (complete : Prop) : OpenElement → Prop where
  | array {start : Nat} {items : List (Tree Element)} (values : ∀ t ∈ items, IsValue complete t) :
      Lawful complete (.array start items)
  | object {start : Nat} {members : List (Tree Element)}
      (properties : ∀ t ∈ members, IsMember complete t) :
      Lawful complete (.object start members none)
  | named {start : Nat} {members : List (Tree Element)} {name : Element} {text : List CodeUnit}
      (properties : ∀ t ∈ members, IsMember complete t) (name_kind : name.kind = .string text) :
      Lawful complete (.object start members (some name))

/-- The element has a property that waits for its value. -/
def waits : OpenElement → Bool
  | .object _ _ (some _) => true
  | _ => false

/-- The element can take a value: it is an array, or has a property that waits for one. -/
def takesValue : OpenElement → Bool
  | .object _ _ none => false
  | _ => true

variable {complete complete' : Prop} {e : OpenElement} {v : Tree Element} {stop : Nat}

/-- An object that waits for a value can take one. -/
theorem takesValue_of_waits (h : e.waits = true) : e.takesValue = true := by
  match e, h with
  | .object _ _ (some _), _ => rfl

/-- Once a value is added, no property waits for one. -/
theorem waits_add (v : Tree Element) (e : OpenElement) : (e.add v).waits = false := by
  match e with
  | .array _ _ => rfl
  | .object _ _ none => rfl
  | .object _ _ (some _) => rfl

/-- Once a property is ended, no property waits for a value. -/
theorem waits_endProperty (stop : Nat) (e : OpenElement) : (e.endProperty stop).waits = false := by
  match e with
  | .array _ _ => rfl
  | .object _ _ none => rfl
  | .object _ _ (some _) => rfl

/-- An open element that keeps to the grammar does so where less must be complete. -/
theorem Lawful.mono (h : e.Lawful complete) (hle : complete' → complete) : e.Lawful complete' := by
  cases h with
  | array values => exact .array fun t ht => (values t ht).mono hle
  | object properties => exact .object fun t ht => (properties t ht).mono hle
  | named properties name_kind => exact .named (fun t ht => (properties t ht).mono hle) name_kind

/-- An open element that can take a value keeps to the grammar with it. -/
theorem Lawful.add (h : e.Lawful complete) (htakes : e.takesValue = true)
    (hv : IsValue complete v) : (e.add v).Lawful complete := by
  cases h with
  | array values => exact .array (List.forall_mem_cons.2 ⟨hv, values⟩)
  | object properties => simp [takesValue] at htakes
  | named properties name_kind =>
    exact .object (List.forall_mem_cons.2 ⟨isMember_pair name_kind hv, properties⟩)

/-- A property may be given up where not everything need be complete. -/
theorem Lawful.endProperty (h : e.Lawful complete) (hwaits : e.waits = true → ¬complete) :
    (e.endProperty stop).Lawful complete := by
  cases h with
  | array values => exact .array values
  | object properties => exact .object properties
  | named properties name_kind =>
    have hended : IsMember complete (OpenElement.property _ [] stop) :=
      isMember_nameOnly name_kind (hwaits rfl)
    exact .object (List.forall_mem_cons.2 ⟨hended, properties⟩)

/-- A closed element is a value that keeps to the grammar, if no property is left waiting where all
must be complete. -/
theorem Lawful.close (h : e.Lawful complete) (hwaits : e.waits = true → ¬complete) :
    IsValue complete (e.close stop) := by
  have hended : (e.endProperty stop).Lawful complete := h.endProperty hwaits
  rw [OpenElement.close]
  cases hend : e.endProperty stop with
  | array start items =>
    rw [hend] at hended
    cases hended with
    | array values => exact isValue_array fun t ht => values t (List.mem_reverse.1 ht)
  | object start members property =>
    rw [hend] at hended
    cases hended with
    | object properties => exact isValue_object fun t ht => properties t (List.mem_reverse.1 ht)
    | named properties name_kind =>
      exact isValue_object fun t ht => properties t (List.mem_reverse.1 ht)

/-- Elements that are closed one after the other at the end of a text. -/
theorem closeOuter_isValue {outer : List OpenElement} (hv : IsValue False v)
    (houter : ∀ e ∈ outer, e.Lawful False ∧ e.takesValue = true) :
    IsValue False (outer.foldl (fun v e => (e.add v).close stop) v) := by
  induction outer generalizing v with
  | nil => exact hv
  | cons e outer ih =>
    obtain ⟨⟨hlawful, htakes⟩, hrest⟩ := List.forall_mem_cons.1 houter
    exact ih ((hlawful.add htakes hv).close fun _ => not_false) hrest

end OpenElement

/-! ## The parser between two lexemes -/

/-- The lexeme is a value or begins one. -/
def LexemeKind.startsValue : LexemeKind → Bool
  | .openBrace | .openBracket | .string _ | .number | .boolean _ | .null => true
  | _ => false

/-- The innermost open element is in the state that the phase of the parser asks for. -/
def Phase.Suits (e : OpenElement) (faults : List Fault) : Phase → Prop
  | .item _ | .afterComma => e.waits = false
  | .colon | .propertyValue => e.waits = true
  | .skipping _ => faults ≠ []
  | .start | .ended | .done => False

namespace Parser

/-- What the parser has made keeps to the grammar, completely as long as there is no fault. -/
structure Lawful (p : Parser) : Prop where
  elements : ∀ e ∈ p.openElements, e.Lawful (p.faults = [])
  outer : ∀ e ∈ p.openElements.tail, e.takesValue = true
  root : ∀ r, p.root = some r → IsValue (p.faults = []) r

/-- Where the parser stands before the end of the text; `seen` says that it has met a value. -/
inductive Stands (seen : Prop) (p : Parser) : Prop where
  | before (phase : p.phase = .start) (none_open : p.openElements = []) (no_root : p.root = none)
      (unseen : p.faults = [] → ¬seen)
  | inside (e : OpenElement) (outer : List OpenElement) (some_open : p.openElements = e :: outer)
      (suits : p.phase.Suits e p.faults) (met : seen)
  | after (phase : p.phase = .ended) (none_open : p.openElements = []) (has_root : p.root.isSome)
      (met : seen)
  | lost (phase : p.phase = .done) (faulty : p.faults ≠ [])

/-- The parser is where the lexemes so far lead, with everything in keeping with the grammar. -/
structure OnTrack (seen : Prop) (p : Parser) : Prop where
  lawful : p.Lawful
  stands : p.Stands seen

variable {seen : Prop} {p q : Parser} {l : Lexeme} {e : OpenElement} {outer : List OpenElement}
  {code : FaultCode} {condition : Bool}

/-- What is known of the innermost open element, and of those around it. -/
theorem Lawful.of_open (h : p.Lawful) (hopen : p.openElements = e :: outer) :
    e.Lawful (p.faults = []) ∧ (∀ e ∈ outer, e.Lawful (p.faults = [])) ∧
      ∀ e ∈ outer, e.takesValue = true := by
  have helements := h.elements
  have houter := h.outer
  rw [hopen] at helements houter
  rw [List.forall_mem_cons] at helements
  exact ⟨helements.1, helements.2, houter⟩

/-- The parser gives up before the end of the text only after a fault. -/
theorem Stands.faulty_of_done (h : p.Stands seen) (hdone : p.phase = .done) : p.faults ≠ [] := by
  cases h with
  | before phase => simp [hdone] at phase
  | inside e outer some_open suits met => simp [hdone, Phase.Suits] at suits
  | after phase => simp [hdone] at phase
  | lost phase faulty => exact faulty

/-- The parser starts out on track. -/
theorem onTrack_start : OnTrack False {} :=
  ⟨⟨by simp, by simp, by simp⟩, .before rfl rfl rfl fun _ => not_false⟩

/-! ### Faults -/

/-- After a report there are faults. -/
theorem report_faults_ne (code : FaultCode) (l : Lexeme) (p : Parser) :
    (p.report code l).faults ≠ [] :=
  List.cons_ne_nil _ _

/-- A fault takes back the demand that everything be complete. -/
theorem Lawful.report (h : p.Lawful) (code : FaultCode) (l : Lexeme) :
    (p.report code l).Lawful := by
  have hle : (p.report code l).faults = [] → p.faults = [] :=
    fun hfaults => absurd hfaults (report_faults_ne code l p)
  exact ⟨fun e he => (h.elements e he).mono hle, h.outer, fun r hr => (h.root r hr).mono hle⟩

/-- A report does not touch the open elements. -/
@[simp]
theorem reportIf_openElements (condition : Bool) (code : FaultCode) (l : Lexeme) (p : Parser) :
    (p.reportIf condition code l).openElements = p.openElements := by
  cases condition <;> rfl

/-- A report leaves everything in keeping with the grammar. -/
theorem Lawful.reportIf (h : p.Lawful) (condition : Bool) (code : FaultCode) (l : Lexeme) :
    (p.reportIf condition code l).Lawful := by
  rw [Parser.reportIf]
  split
  · exact h.report code l
  · exact h

/-- Keeping to the grammar does not depend on what the parser expects next. -/
theorem Lawful.phase (h : p.Lawful) (phase : Phase) : { p with phase := phase }.Lawful :=
  ⟨h.elements, h.outer, h.root⟩

/-- A report does not move the parser. -/
theorem Stands.report (h : p.Stands seen) (code : FaultCode) (l : Lexeme) :
    (p.report code l).Stands seen := by
  have hfaulty := report_faults_ne code l p
  cases h with
  | before phase none_open no_root unseen =>
    exact .before phase none_open no_root fun hfaults => absurd hfaults hfaulty
  | inside e outer some_open suits met =>
    refine .inside e outer some_open ?_ met
    change p.phase.Suits e (p.report code l).faults
    revert suits
    cases p.phase <;> simp [Phase.Suits, hfaulty]
  | after phase none_open has_root met => exact .after phase none_open has_root met
  | lost phase faulty => exact .lost phase hfaulty

/-- A report leaves the parser on track. -/
theorem OnTrack.report (h : p.OnTrack seen) (code : FaultCode) (l : Lexeme) :
    (p.report code l).OnTrack seen :=
  ⟨h.lawful.report code l, h.stands.report code l⟩

/-- A report leaves the parser on track, whether it is made or not. -/
theorem OnTrack.reportIf (h : p.OnTrack seen) (condition : Bool) (code : FaultCode) (l : Lexeme) :
    (p.reportIf condition code l).OnTrack seen := by
  rw [Parser.reportIf]
  split
  · exact h.report code l
  · exact h

/-- A fault of the scanner leaves the parser on track. -/
theorem OnTrack.reportScan (h : p.OnTrack seen) (options : Dialect) (l : Lexeme) :
    (p.reportScan options l).OnTrack seen := by
  rw [Parser.reportScan]
  split
  · exact h.report _ l
  · exact h

/-- Only whether a value has been met counts, not how it is said. -/
theorem OnTrack.congr {seen' : Prop} (h : p.OnTrack seen) (heq : seen ↔ seen') :
    p.OnTrack seen' := by
  rwa [← propext heq]

/-! ### Values and boundaries -/

/-- The parser is on track after adding a value where one can be taken. -/
theorem addValue_onTrack {v : Tree Element} (h : p.Lawful)
    (hready : ∀ e ∈ p.openElements, e.takesValue = true) (hv : IsValue (p.faults = []) v)
    (met : seen) : (p.addValue v).OnTrack seen := by
  rw [addValue]
  cases hopen : p.openElements with
  | nil =>
    refine ⟨⟨by simp, by simp, ?_⟩, .after rfl rfl rfl met⟩
    intro r hr
    cases hr
    exact hv
  | cons e outer =>
    obtain ⟨he, helements, houter⟩ := h.of_open hopen
    have htakes : e.takesValue = true := hready e (by simp [hopen])
    refine ⟨⟨?_, houter, h.root⟩, .inside _ _ rfl (e.waits_add v) met⟩
    exact List.forall_mem_cons.2 ⟨he.add htakes hv, helements⟩

/-- The parser is on track after opening an element where a value can be taken. -/
theorem enter_onTrack (h : p.Lawful) (hready : ∀ e ∈ p.openElements, e.takesValue = true)
    (he : e.Lawful (p.faults = [])) (hwaits : e.waits = false) (met : seen) :
    (p.enter e).OnTrack seen :=
  ⟨⟨List.forall_mem_cons.2 ⟨he, h.elements⟩, hready, h.root⟩, .inside e _ rfl hwaits met⟩

/-- A lexeme that is an element by itself is a scalar. -/
theorem isScalar_of_leafKind? {kind : LexemeKind} {k : ElementKind} (h : leafKind? kind = some k) :
    k.isScalar = true := by
  cases kind with
  | string _ | number | boolean _ | null =>
    cases h
    rfl
  | _ => cases h

/-- A value is taken exactly if the lexeme begins one. -/
theorem takeValue?_eq_none_iff : p.takeValue? l = none ↔ l.kind.startsValue = false := by
  rw [Parser.takeValue?]
  cases l.kind <;> simp [leafKind?, LexemeKind.startsValue]

/-- The parser is on track after taking a lexeme as a value or as the start of one. -/
theorem takeValue?_onTrack (h : p.Lawful) (hready : ∀ e ∈ p.openElements, e.takesValue = true)
    (hq : p.takeValue? l = some q) (met : seen) : q.OnTrack seen := by
  rw [Parser.takeValue?] at hq
  split at hq
  · cases hq
    exact enter_onTrack h hready (.array (by simp)) rfl met
  · cases hq
    exact enter_onTrack h hready (.object (by simp)) rfl met
  · obtain ⟨kind, hkind, rfl⟩ := Option.map_eq_some_iff.1 hq
    exact addValue_onTrack h hready (isValue_scalar (isScalar_of_leafKind? hkind)) met

/-- The parser is on track after closing the innermost element. -/
theorem closeInnermost_onTrack (h : p.Lawful) (hopen : p.openElements = e :: outer)
    (hwaits : e.waits = true → p.faults ≠ []) (met : seen) (l : Lexeme) :
    (p.closeInnermost l).OnTrack seen := by
  obtain ⟨he, helements, houter⟩ := h.of_open hopen
  have hrest : Lawful { p with openElements := outer } :=
    ⟨helements, fun e he => houter e (List.mem_of_mem_tail he), h.root⟩
  rw [Parser.closeInnermost, hopen]
  exact addValue_onTrack hrest houter (he.close hwaits) met

/-- The parser is on track after a comma or a closing bracket. -/
theorem takeBoundary_onTrack (h : p.Lawful) (hopen : p.openElements = e :: outer)
    (hwaits : e.waits = true → p.faults ≠ []) (met : seen) (hend : l.kind ≠ .endOfText) :
    (p.takeBoundary l).OnTrack seen := by
  rw [Parser.takeBoundary, if_neg hend]
  split
  · exact closeInnermost_onTrack h hopen hwaits met l
  · obtain ⟨he, helements, houter⟩ := h.of_open hopen
    rw [hopen]
    refine ⟨⟨?_, houter, h.root⟩, .inside _ _ rfl (e.waits_endProperty l.offset) met⟩
    exact List.forall_mem_cons.2 ⟨he.endProperty hwaits, helements⟩

/-- The parser is on track after skipping a lexeme because of a fault. -/
theorem skip_onTrack (h : p.Lawful) (hopen : p.openElements = e :: outer) (hfaulty : p.faults ≠ [])
    (met : seen) (hend : l.kind ≠ .endOfText) (valueMissing : Bool) :
    (p.skip valueMissing l).OnTrack seen := by
  have hlawful := h.reportIf valueMissing .valueExpected l
  have hfaulty' : (p.reportIf valueMissing .valueExpected l).faults ≠ [] := by
    cases valueMissing with
    | false => exact hfaulty
    | true => exact report_faults_ne .valueExpected l p
  rw [Parser.skip]
  split
  · exact takeBoundary_onTrack hlawful (by simpa using hopen) (fun _ => hfaulty') met hend
  · exact ⟨h.phase _, .inside e outer hopen hfaulty met⟩

/-- The parser is on track after a lexeme where a value is due. -/
theorem takeValue_onTrack (h : p.Lawful) (hopen : p.openElements = e :: outer)
    (htakes : e.takesValue = true) (met : seen) (hend : l.kind ≠ .endOfText) :
    (p.takeValue l).OnTrack seen := by
  have hready : ∀ e ∈ p.openElements, e.takesValue = true := by
    rw [hopen]
    exact List.forall_mem_cons.2 ⟨htakes, (h.of_open hopen).2.2⟩
  rw [Parser.takeValue]
  split
  next q hq => exact takeValue?_onTrack h hready hq met
  next =>
    exact skip_onTrack (h.report .valueExpected l) hopen (report_faults_ne _ l p) met hend false

/-- The parser is on track after a lexeme where an item is due. -/
theorem takeItem_onTrack (h : p.Lawful) (hopen : p.openElements = e :: outer)
    (hwaits : e.waits = false) (met : seen) (hend : l.kind ≠ .endOfText) :
    (p.takeItem l).OnTrack seen := by
  obtain ⟨he, helements, houter⟩ := h.of_open hopen
  rw [Parser.takeItem, hopen]
  cases he with
  | array values => exact takeValue_onTrack h hopen rfl met hend
  | named properties name_kind => simp [OpenElement.waits] at hwaits
  | object properties =>
    simp only
    split
    next value hkind =>
      refine ⟨⟨?_, houter, h.root⟩, .inside _ _ rfl rfl met⟩
      exact List.forall_mem_cons.2 ⟨.named properties rfl, helements⟩
    next =>
      have hlawful := h.report .propertyNameExpected l
      exact skip_onTrack hlawful hopen (report_faults_ne _ l p) met hend true

/-! ### One lexeme -/

/-- What a lexeme before the end of the text leaves, if the parser is inside an element. -/
theorem take_onTrack_inside (h : p.Lawful) (hopen : p.openElements = e :: outer)
    (hsuits : p.phase.Suits e p.faults) (met : seen) (hend : l.kind ≠ .endOfText)
    (options : Dialect) : (p.take options l).OnTrack seen := by
  rw [Parser.take]
  cases hphase : p.phase with
  | start | ended | done => simp [hphase, Phase.Suits] at hsuits
  | item commaDue =>
    have hwaits : e.waits = false := by simpa [hphase, Phase.Suits] using hsuits
    simp only
    split
    · have hreported : ∀ condition code,
          (p.reportIf condition code l).openElements = e :: outer := by
        intro condition code
        rw [reportIf_openElements, hopen]
      exact takeBoundary_onTrack (h.reportIf _ _ l) (hreported _ _) (by simp [hwaits]) met hend
    · exact takeItem_onTrack (h.reportIf _ _ l) (by simpa using hopen) hwaits met hend
  | afterComma =>
    have hwaits : e.waits = false := by simpa [hphase, Phase.Suits] using hsuits
    simp only
    split
    · exact closeInnermost_onTrack h hopen (by simp [hwaits]) met l
    · exact takeItem_onTrack h hopen hwaits met hend
  | colon =>
    have hwaits : e.waits = true := by simpa [hphase, Phase.Suits] using hsuits
    simp only
    split
    · exact ⟨h.phase _, .inside e outer hopen hwaits met⟩
    · exact skip_onTrack (h.report _ l) hopen (report_faults_ne _ l p) met hend false
  | propertyValue =>
    have hwaits : e.waits = true := by simpa [hphase, Phase.Suits] using hsuits
    exact takeValue_onTrack h hopen (OpenElement.takesValue_of_waits hwaits) met hend
  | skipping valueMissing =>
    have hfaulty : p.faults ≠ [] := by simpa [hphase, Phase.Suits] using hsuits
    exact skip_onTrack h hopen hfaulty met hend valueMissing

/-- The parser stays on track with every lexeme before the end, and has met a value if that is one.
-/
theorem OnTrack.take (h : p.OnTrack seen) (hend : l.kind ≠ .endOfText) (options : Dialect) :
    (p.take options l).OnTrack (seen ∨ l.kind.startsValue = true) := by
  cases h.stands with
  | before phase none_open no_root unseen =>
    rw [Parser.take, phase]
    simp only [if_neg hend]
    split
    next q hq =>
      have hstarts : l.kind.startsValue = true := by
        by_contra hnot
        rw [takeValue?_eq_none_iff.2 (by simpa using hnot)] at hq
        cases hq
      exact takeValue?_onTrack h.lawful (by simp [none_open]) hq (.inr hstarts)
    next =>
      exact ⟨(h.lawful.report _ l).phase _, .lost rfl (report_faults_ne _ l p)⟩
  | inside e outer some_open suits met =>
    exact take_onTrack_inside h.lawful some_open suits (.inl met) hend options
  | after phase none_open has_root met =>
    have hreported : p.reportIf (decide (l.kind ≠ .endOfText)) .endOfFileExpected l =
        p.report .endOfFileExpected l := by
      rw [Parser.reportIf, if_pos (by simpa using hend)]
    rw [Parser.take, phase]
    simp only [hreported]
    exact ⟨(h.lawful.report _ l).phase _, .lost rfl (report_faults_ne _ l p)⟩
  | lost phase faulty =>
    rw [Parser.take, phase]
    exact ⟨h.lawful, .lost phase faulty⟩

/-- What a lexeme before the end of the text leaves. -/
theorem OnTrack.step (h : p.OnTrack seen) (hend : l.kind ≠ .endOfText) (options : Dialect) :
    (p.step options l).OnTrack (seen ∨ l.kind.startsValue = true) := by
  have hscan := h.reportScan options l
  rw [Parser.step]
  split
  next hdone => exact ⟨h.lawful, .lost hdone (h.stands.faulty_of_done hdone)⟩
  next =>
    simp only
    split
    next hkind => exact hscan.congr (by simp [hkind, LexemeKind.startsValue])
    next hkind =>
      exact (hscan.reportIf _ _ l).congr (by simp [hkind, LexemeKind.startsValue])
    next hkind => exact (hscan.report _ l).congr (by simp [hkind, LexemeKind.startsValue])
    next => exact hscan.take hend options

/-! ## The end of the text -/

/-- What the end of the text leaves: a root that keeps to the grammar. Without faults it is
complete, and there is one exactly if the text has a value; else the text may be empty. -/
structure Concludes (options : Dialect) (seen : Prop) (p : Parser) : Prop where
  root : ∀ r, p.root = some r → IsValue (p.faults = []) r
  met : p.faults = [] → seen → p.root.isSome
  unmet : p.faults = [] → ¬seen → p.root = none ∧ options.emptyContent = true

/-- With faults, a root that keeps to the grammar is all that is asked for. -/
theorem Concludes.of_faulty {options : Dialect} (hroot : ∀ r, p.root = some r → IsValue False r)
    (hfaulty : p.faults ≠ []) : p.Concludes options seen := by
  refine ⟨fun r hr => (hroot r hr).mono hfaulty, ?_, ?_⟩
  · exact fun hfaults => absurd hfaults hfaulty
  · exact fun hfaults => absurd hfaults hfaulty

/-- With faults, what the parser has made is enough for a conclusion. -/
theorem Lawful.concludes_of_faulty (h : p.Lawful) (hfaulty : p.faults ≠ []) {options : Dialect} :
    p.Concludes options seen :=
  .of_faulty (fun r hr => (h.root r hr).mono False.elim) hfaulty

/-- Closing all elements at the end of the text concludes it. -/
theorem closeAll_concludes (h : p.Lawful) (hopen : p.openElements = e :: outer)
    (options : Dialect) (l : Lexeme) : (p.closeAll l).Concludes options seen := by
  obtain ⟨he, helements, houter⟩ := h.of_open hopen
  have hclosed : IsValue False (e.close l.stop) := (he.mono False.elim).close fun _ => not_false
  rw [Parser.closeAll, hopen]
  refine .of_faulty ?_ (by simp)
  intro r hr
  cases hr
  refine OpenElement.closeOuter_isValue hclosed fun e he => ?_
  exact ⟨(helements e he).mono False.elim, houter e he⟩

/-- The end of the text concludes it while skipping. -/
theorem skip_concludes (h : p.Lawful) (hopen : p.openElements = e :: outer)
    (hl : l.kind = .endOfText) (options : Dialect) (valueMissing : Bool) :
    (p.skip valueMissing l).Concludes options seen := by
  have hboundary : p.isBoundary l = true := by simp [isBoundary, hl]
  rw [Parser.skip, if_pos hboundary, Parser.takeBoundary, if_pos hl]
  exact closeAll_concludes (h.reportIf _ _ l) (by simpa using hopen) options l

/-- The end of the text concludes it where a value is due. -/
theorem takeValue_concludes (h : p.Lawful) (hopen : p.openElements = e :: outer)
    (hl : l.kind = .endOfText) (options : Dialect) : (p.takeValue l).Concludes options seen := by
  have hnone : p.takeValue? l = none :=
    takeValue?_eq_none_iff.2 (by simp [hl, LexemeKind.startsValue])
  rw [Parser.takeValue, hnone]
  exact skip_concludes (h.report _ l) hopen hl options false

/-- The end of the text concludes it where an item is due. -/
theorem takeItem_concludes (h : p.Lawful) (hopen : p.openElements = e :: outer)
    (hl : l.kind = .endOfText) (options : Dialect) : (p.takeItem l).Concludes options seen := by
  rw [Parser.takeItem]
  split
  · rw [hl]
    exact skip_concludes (h.report _ l) hopen hl options true
  · exact takeValue_concludes h hopen hl options

/-- Where the text ends inside an element, that is a fault. -/
theorem take_concludes_inside (h : p.Lawful) (hopen : p.openElements = e :: outer)
    (hsuits : p.phase.Suits e p.faults) (hl : l.kind = .endOfText) (options : Dialect) :
    (p.take options l).Concludes options seen := by
  rw [Parser.take]
  cases hphase : p.phase with
  | start | ended | done => simp [hphase, Phase.Suits] at hsuits
  | item commaDue =>
    have hboundary : p.isBoundary l = true := by simp [isBoundary, hl]
    simp only [if_pos hboundary, Parser.takeBoundary, if_pos hl]
    exact closeAll_concludes (h.reportIf _ _ l) (by simpa using hopen) options l
  | afterComma =>
    have hcloses : p.closes l = false := by
      rw [closes, hopen]
      cases e <;> simp [hl, OpenElement.closing]
    simp only [hcloses, Bool.and_false, Bool.false_eq_true, if_false]
    exact takeItem_concludes h hopen hl options
  | colon =>
    have hne : l.kind ≠ .colon := by simp [hl]
    simp only [if_neg hne]
    exact skip_concludes (h.report _ l) hopen hl options false
  | propertyValue => exact takeValue_concludes h hopen hl options
  | skipping valueMissing => exact skip_concludes h hopen hl options valueMissing

/-- The end of the text concludes it, whatever the parser is waiting for. -/
theorem OnTrack.take_end (h : p.OnTrack seen) (hl : l.kind = .endOfText) (options : Dialect) :
    (p.take options l).Concludes options seen := by
  cases h.stands with
  | before phase none_open no_root unseen =>
    rw [Parser.take, phase]
    simp only [if_pos hl]
    cases hempty : options.emptyContent with
    | true =>
      exact ⟨by simp [Parser.reportIf, no_root],
        fun hfaults met => absurd met (unseen hfaults), fun _ _ => ⟨no_root, hempty⟩⟩
    | false =>
      refine .of_faulty ?_ (report_faults_ne .valueExpected l p)
      simp [Parser.reportIf, Parser.report, no_root]
  | inside e outer some_open suits met =>
    exact take_concludes_inside h.lawful some_open suits hl options
  | after phase none_open has_root met =>
    rw [Parser.take, phase]
    simp only [hl, ne_eq, not_true_eq_false, decide_false, Parser.reportIf, Bool.false_eq_true,
      if_false]
    exact ⟨h.lawful.root, fun _ _ => has_root, fun _ hnot => absurd met hnot⟩
  | lost phase faulty =>
    rw [Parser.take, phase]
    exact h.lawful.concludes_of_faulty faulty

/-- The last step concludes the text. -/
theorem OnTrack.step_end (h : p.OnTrack seen) (hl : l.kind = .endOfText) (options : Dialect) :
    (p.step options l).Concludes options seen := by
  rw [Parser.step]
  split
  next hdone => exact h.lawful.concludes_of_faulty (h.stands.faulty_of_done hdone)
  next =>
    simp only [hl]
    exact (h.reportScan options l).take_end hl options

/-- The lexemes in a row are taken one by one, the last of which is the end of the text. -/
theorem OnTrack.foldl_step {length overrun offset : Nat} {ls : List Lexeme}
    (hrow : Lexeme.InRow length overrun offset ls) (options : Dialect) (h : p.OnTrack seen) :
    (ls.foldl (Parser.step options) p).Concludes options
      (seen ∨ ∃ l ∈ ls, l.kind.startsValue = true) := by
  induction hrow generalizing p seen with
  | ended =>
    have hend := h.step_end (l := ⟨⟨.endOfText, overrun, none⟩, length⟩) rfl options
    simpa [LexemeKind.startsValue] using hend
  | @next l ls pos ne_endOfText fits rest ih =>
    have hrest := ih (h.step ne_endOfText options)
    simpa only [List.foldl_cons, List.mem_cons, exists_eq_or_imp, or_assoc] using hrest

end Parser

/-! ## Whole texts -/

/-- Some lexeme of the text is a value or begins one. -/
def HoldsValue (text : List CodeUnit) : Prop :=
  ∃ l ∈ Lexeme.ofText text, l.kind.startsValue = true

/-- Every text is concluded, with a root if it holds a value and has no faults. -/
theorem run_concludes (options : Dialect) (text : List CodeUnit) :
    (Parser.run options text).Concludes options (HoldsValue text) := by
  obtain ⟨overrun, hrow, -, -⟩ := Lexeme.ofText_inRow text
  have hrun := Parser.onTrack_start.foldl_step hrow options
  rw [false_or] at hrun
  exact hrun

/-! ## Parse trees of texts -/

/-- The labels of values. -/
def valueLabels : List String := ["object", "array", "string", "number", "boolean", "null"]

/-- The children of a node are what its label asks for. -/
structure FollowsGrammar (s : ParseTree) : Prop where
  object : s.value.label = "object" → ∀ c ∈ s.children, c.value.label = "property"
  array : s.value.label = "array" → ∀ c ∈ s.children, c.value.label ∈ valueLabels
  property : s.value.label = "property" → ∃ name : ParseTree, name.value.label = "string" ∧
    (s.children = [name] ∨
      ∃ v : ParseTree, v.value.label ∈ valueLabels ∧ s.children = [name, v])
  leaf : s.value.label ∉ ["object", "array", "property"] → s.children = []

/-- The label in the parse tree is that of the element's kind. -/
theorem label_map (t : Tree Element) : (t.map Element.toNode).value.label = t.value.kind.label := by
  rw [Tree.value_map, Element.toNode]

/-- An element that is no property has the label of a value. -/
theorem label_mem_valueLabels {kind : ElementKind} (h : kind ≠ .property) :
    kind.label ∈ valueLabels := by
  cases kind <;> simp_all [ElementKind.label, valueLabels]

/-- Kinds that hold anything are told apart by their labels. -/
theorem eq_of_label_eq {kind kind' : ElementKind} (h : kind.label = kind'.label)
    (hkind' : kind'.isScalar = false) : kind = kind' := by
  cases kind' <;> simp [ElementKind.isScalar] at hkind' <;> cases kind <;>
    simp [ElementKind.label] at h <;> rfl

/-- A lawful element becomes a node whose children are in keeping with its label. -/
theorem Holds.followsGrammar {complete : Prop} {t : Tree Element}
    (h : Holds complete t.value.kind t.children) : FollowsGrammar (t.map Element.toNode) := by
  refine ⟨?_, ?_, ?_, ?_⟩
  · intro hlabel c hc
    rw [label_map] at hlabel
    have hkind : t.value.kind = .object := eq_of_label_eq hlabel rfl
    rw [hkind] at h
    rw [Tree.children_map, List.mem_map] at hc
    obtain ⟨u, hu, rfl⟩ := hc
    rw [label_map, h.of_object u hu]
    rfl
  · intro hlabel c hc
    rw [label_map] at hlabel
    have hkind : t.value.kind = .array := eq_of_label_eq hlabel rfl
    rw [hkind] at h
    rw [Tree.children_map, List.mem_map] at hc
    obtain ⟨u, hu, rfl⟩ := hc
    rw [label_map]
    exact label_mem_valueLabels (h.of_array u hu)
  · intro hlabel
    rw [label_map] at hlabel
    have hkind : t.value.kind = .property := eq_of_label_eq hlabel rfl
    rw [hkind] at h
    obtain ⟨name, text, hname, hchildren⟩ := h.of_property
    refine ⟨(Tree.node name []).map Element.toNode, ?_, ?_⟩
    · rw [label_map, Tree.value, hname]
      rfl
    · rw [Tree.children_map]
      rcases hchildren with ⟨-, hchildren⟩ | ⟨v, hv, hchildren⟩
      · exact .inl (by rw [hchildren]; rfl)
      · refine .inr ⟨v.map Element.toNode, ?_, by rw [hchildren]; rfl⟩
        rw [label_map]
        exact label_mem_valueLabels hv
  · intro hlabel
    have hscalar : t.value.kind.isScalar = true := by
      rw [label_map] at hlabel
      revert hlabel
      cases t.value.kind <;> simp [ElementKind.label, ElementKind.isScalar]
    rw [Tree.children_map, h.of_isScalar hscalar]
    rfl

/-- The property of a complete document has a name and a value. -/
theorem Holds.length_property {t : Tree Element} (h : Holds True t.value.kind t.children)
    (hlabel : (t.map Element.toNode).value.label = "property") :
    (t.map Element.toNode).children.length = 2 := by
  rw [label_map] at hlabel
  have hkind : t.value.kind = .property := eq_of_label_eq hlabel rfl
  rw [hkind] at h
  obtain ⟨name, text, -, ⟨hincomplete, -⟩ | ⟨v, -, hchildren⟩⟩ := h.of_property
  · exact absurd trivial hincomplete
  · rw [Tree.children_map, hchildren]
    rfl

/-- The tree of an empty text has no place but its root. -/
theorem subtree?_emptyNode {length : Nat} {place : List Nat} {s : ParseTree}
    (hs : Tree.subtree? (.node (emptyNode length) []) place = some s) :
    s = .node (emptyNode length) [] := by
  cases place with
  | nil => exact (Option.some.inj hs).symm
  | cons i place => simp [Tree.subtree?, Tree.children] at hs

/-- The node of an empty text follows the grammar. -/
theorem followsGrammar_emptyNode (length : Nat) :
    FollowsGrammar (.node (emptyNode length) []) := by
  refine ⟨?_, ?_, ?_, ?_⟩ <;> simp [Tree.value, Tree.children, emptyNode]

/-- The children of every node are what its label asks for, whatever the text holds and whatever is
allowed in it, and the root is a value or stands for a text without one. If no fault is reported,
every property has its value, and the root is a value unless the text has none and may be empty. -/
theorem analyzeUnits_grammatical (options : Dialect) (text : List CodeUnit) :
    let a := analyzeUnits options text
    (∀ place s, Tree.subtree? a.root place = some s → FollowsGrammar s) ∧
    (a.root.value.label ∈ valueLabels ∨ a.root = .node (emptyNode text.length) []) ∧
    (a.faults = [] →
      (∀ place s, Tree.subtree? a.root place = some s → s.value.label = "property" →
        s.children.length = 2) ∧
      (HoldsValue text → a.root.value.label ∈ valueLabels) ∧
      (¬HoldsValue text →
        options.emptyContent = true ∧ a.root = .node (emptyNode text.length) [])) := by
  have hrun := run_concludes options text
  simp only [analyzeUnits, parse, List.reverse_eq_nil_iff]
  cases hroot : (Parser.run options text).root with
  | none =>
    refine ⟨?_, .inr rfl, ?_⟩
    · intro place s hs
      rw [subtree?_emptyNode hs]
      exact followsGrammar_emptyNode text.length
    · intro hfaults
      refine ⟨?_, ?_, fun hnone => ⟨(hrun.unmet hfaults hnone).2, rfl⟩⟩
      · intro place s hs hlabel
        rw [subtree?_emptyNode hs] at hlabel
        simp [Tree.value, emptyNode] at hlabel
      · intro hvalue
        have hsome := hrun.met hfaults hvalue
        simp [hroot] at hsome
  | some r =>
    have hvalue := hrun.root r hroot
    have hlabel : (r.map Element.toNode).value.label ∈ valueLabels := by
      rw [label_map]
      exact label_mem_valueLabels hvalue.kind
    -- A node of the tree comes from an element that keeps to the grammar.
    have hnode : ∀ {complete : Prop} {place : List Nat} {s : ParseTree}, Lawful complete r →
        Tree.subtree? (r.map Element.toNode) place = some s →
        ∃ u : Tree Element, Holds complete u.value.kind u.children ∧ s = u.map Element.toNode := by
      intro complete place s hlawful hs
      rw [Tree.subtree?_map] at hs
      obtain ⟨u, hu, rfl⟩ := Option.map_eq_some_iff.1 hs
      exact ⟨u, hlawful.of_subtree hu, rfl⟩
    refine ⟨?_, .inl hlabel, ?_⟩
    · intro place s hs
      obtain ⟨u, hu, rfl⟩ := hnode hvalue.lawful hs
      exact hu.followsGrammar
    · intro hfaults
      refine ⟨?_, fun _ => hlabel, ?_⟩
      · intro place s hs hproperty
        obtain ⟨u, hu, rfl⟩ := hnode (hvalue.lawful.mono fun _ => hfaults) hs
        exact hu.length_property hproperty
      · intro hnone
        have hempty := (hrun.unmet hfaults hnone).1
        simp [hroot] at hempty

end Document

end TreeInspector
