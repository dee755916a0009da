import TreeInspector.Proofs.Config.Written

/-!
# Which configuration texts are accepted

A text is accepted if it has no faults and the object that holds the options has no name beside
theirs, each with true, false or null as its last value. What is wrong otherwise is listed in full.
All this is said of what the text writes, and holds as long as no name in that object chooses a
parent: such a name is not seen itself, and at the top it can put a section of the parent in the
place of the options that are written.
-/

set_option autoImplicit false

namespace TreeInspector.Config

open Document (Element Fault HoldsValue IsValue)

variable {t root : Tree Element} {name : Name} {text : List CodeUnit} {file : String}

/-! ## Values of elements, by kind -/

/-- What a value says if it stands for an option. -/
def Value.setting? : Value → Option Setting
  | .boolean b => some (.given b)
  | .null => some .null
  | _ => none

/-- A value is one of a setting exactly if a setting can be made of it. -/
theorem isSetting_eq (v : Value) : isSetting v = v.setting?.isSome := by
  cases v <;> rfl

/-- The setting that an object gives is made of the first of its own entries with the name. -/
theorem ownSetting_object (own : List (Name × Value)) (parent : Option Value) (option : String) :
    ownSetting (.object own parent) option =
      ((get? (Text.units option) own).bind Value.setting?).getD .absent := by
  rw [ownSetting]
  cases get? (Text.units option) own with
  | none => rfl
  | some v => cases v <;> rfl

/-- The setting of an element that is no property is that of its value. -/
theorem setting?_ofTree (h : t.value.kind ≠ .property) :
    (Value.ofTree t).setting? = setting? t := by
  unfold Value.ofTree setting?
  rw [Tree.fold_eq]
  unfold Value.partOf
  cases hkind : t.value.kind with
  | property => exact absurd hkind h
  | _ => rfl

/-- Only the elements of objects stand for objects. -/
theorem ofTree_ne_object (h : t.value.kind ≠ .property) (hobject : t.value.kind ≠ .object)
    (own : List (Name × Value)) (parent : Option Value) :
    Value.ofTree t ≠ .object own parent := by
  unfold Value.ofTree
  rw [Tree.fold_eq]
  unfold Value.partOf
  cases hkind : t.value.kind with
  | property => exact absurd hkind h
  | object => exact absurd hkind hobject
  | _ => simp

/-- What is not an object has that one issue. -/
theorem issues_of_not_object {v : Value} (h : ∀ own parent, v ≠ .object own parent) :
    issues v = ["/: must be object"] := by
  cases v with
  | object own parent => exact absurd rfl (h own parent)
  | _ => rfl

/-- What is not an object has nothing under any name. -/
theorem lookup?_of_not_object {v : Value} (h : ∀ own parent, v ≠ .object own parent) :
    v.lookup? name = none := by
  cases v with
  | object own parent => exact absurd rfl (h own parent)
  | _ => rfl

/-! ## Objects -/

/-- The last value of a name among changed values is the changed last value. -/
theorem last?_map {α β : Type} (f : α → β) (name : Name) (entries : List (Name × α)) :
    last? name (entries.map fun e => (e.1, f e.2)) = (last? name entries).map f := by
  rw [last?, last?, get?, get?, ← List.map_reverse, List.find?_map]
  simp [Function.comp_def]

/-- The names of the members of an element are the names written in it. -/
theorem names_map (f : Tree Element → Value) (t : Tree Element) :
    ((members t).map fun m => (m.1, f m.2)).map (·.1) = writtenNames t := by
  rw [List.map_map, writtenNames]
  rfl

/-- An object that chooses no parent has each name that is written, with its last value, and no
other. -/
theorem ofTree_object_of_not_mem (h : IsValue True t) (hkind : t.value.kind = .object)
    (hparent : parentName ∉ writtenNames t) :
    ∃ own, Value.ofTree t = .object own none ∧ (own.map (·.1)).Nodup ∧
      (∀ name, get? name own = (last? name (members t)).map Value.ofTree) ∧
      ∀ name, name ∈ own.map (·.1) ↔ name ∈ writtenNames t := by
  rw [Value.ofTree_object h hkind]
  have hnames : parentName ∉ ((members t).map fun m => (m.1, Value.ofTree m.2)).map (·.1) := by
    rwa [names_map]
  obtain ⟨own, hown, hnodup, hget⟩ := Value.ofEntries_of_not_mem hnames
  refine ⟨own, hown, hnodup, ?_, ?_⟩
  · intro name
    rw [hget, last?_map]
  · intro name
    rw [← get?_isSome_iff, hget, last?_isSome_iff, names_map]

/-- Names are written in objects only. -/
theorem members_eq_nil (h : IsValue True t) (hkind : t.value.kind ≠ .object) : members t = [] := by
  have hholds := h.lawful.here
  rw [members, List.filterMap_eq_nil_iff]
  intro c hc
  cases hk : t.value.kind with
  | object => exact absurd hk hkind
  | property => exact absurd hk h.kind
  | array =>
    rw [hk] at hholds
    have hvalue := hholds.of_array c hc
    unfold member?
    split
    · exact absurd rfl hvalue
    · rfl
  | _ =>
    rw [hk] at hholds
    rw [hholds.of_isScalar rfl] at hc
    cases hc

/-- The section of the options is not named like a parent. -/
theorem section_ne_parentName : Text.units sectionName ≠ parentName := by
  decide +kernel

/-- Options are looked for where they are written, unless a name there chooses a parent. -/
theorem candidate_ofTree (h : IsValue True root)
    (hparent : parentName ∉ writtenNames (optionsElement root)) :
    candidate (Value.ofTree root) = Value.ofTree (optionsElement root) := by
  rw [candidate, optionsElement] at *
  by_cases hkind : root.value.kind = .object
  · cases hlast : last? (Text.units sectionName) (members root) with
    | some v =>
      have hlast' : last? (Text.units sectionName)
          ((members root).map fun m => (m.1, Value.ofTree m.2)) = some (Value.ofTree v) := by
        rw [last?_map, hlast]
        rfl
      rw [Value.ofTree_object h hkind, Value.lookup?_ofEntries section_ne_parentName hlast']
      rfl
    | none =>
      rw [hlast] at hparent
      obtain ⟨own, hown, -, hget, -⟩ := ofTree_object_of_not_mem h hkind hparent
      have hnone : (Value.ofTree root).lookup? (Text.units sectionName) = none := by
        rw [hown, Value.lookup?, hget, hlast]
        rfl
      rw [hnone]
      rfl
  · rw [lookup?_of_not_object (ofTree_ne_object h.kind hkind), members_eq_nil h hkind]
    rfl

/-! ## Issues -/

/-- What is wrong with a name that is no option. -/
def unknownIssue (name : Name) : String := "/: unknown option \"" ++ Text.ofUnits name ++ "\""

/-- What is wrong with an option of another type. -/
def mistypedIssue (option : String) : String := "/" ++ option ++ ": must be boolean"

/-- The last value written for an option is neither true nor false nor null. -/
def mistyped (t : Tree Element) (option : String) : Bool :=
  (last? (Text.units option) (members t)).any fun v => (setting? v).isNone

/-- One issue for each name that is no option, and one for each option of another type. -/
theorem issues_object (h : IsValue True t) (hkind : t.value.kind = .object)
    (hparent : parentName ∉ writtenNames t) :
    ∃ unknown : List Name, unknown.Nodup ∧
      (∀ name, name ∈ unknown ↔ name ∈ writtenNames t ∧ name ∉ optionNames.map Text.units) ∧
      issues (Value.ofTree t) =
        unknown.map unknownIssue ++ (optionNames.filter (mistyped t)).map mistypedIssue := by
  obtain ⟨own, hown, hnodup, hget, hnames⟩ := ofTree_object_of_not_mem h hkind hparent
  have henum := Value.enumerate_perm (own.map (·.1))
  refine ⟨(Value.enumerate (own.map (·.1))).filter
    fun n => !(optionNames.map Text.units).contains n, ?_, ?_, ?_⟩
  · exact (henum.nodup_iff.2 hnodup).filter _
  · intro name
    rw [List.mem_filter, henum.mem_iff, hnames]
    simp
  · rw [hown]
    unfold issues
    refine congrArg₂ (· ++ ·) rfl (congrArg _ (List.filter_congr fun option _ => ?_))
    rw [Value.lookup?, hget, mistyped]
    cases hlast : last? (Text.units option) (members t) with
    | none => rfl
    | some v =>
      have hv := isValue_of_mem_members h (mem_of_last? hlast)
      simp [isSetting_eq, setting?_ofTree hv.kind]

/-- What an object says about all options. -/
def writtenSettings (t : Tree Element) : Settings :=
  { navigation := writtenSetting t "enableNavigation"
    highlight := writtenSetting t "highlightOnNavigate" }

/-- Where no parent is written, the own settings of an object are those written in it. -/
theorem ownSettings_object (h : IsValue True t) (hkind : t.value.kind = .object)
    (hparent : parentName ∉ writtenNames t) :
    ownSettings (Value.ofTree t) = writtenSettings t := by
  obtain ⟨own, hown, -, hget, -⟩ := ofTree_object_of_not_mem h hkind hparent
  have hsetting : ∀ option, ownSetting (Value.ofTree t) option = writtenSetting t option := by
    intro option
    rw [hown, ownSetting_object, hget, writtenSetting]
    cases hlast : last? (Text.units option) (members t) with
    | none => rfl
    | some v =>
      have hv := isValue_of_mem_members h (mem_of_last? hlast)
      exact congrArg (Option.getD · .absent) (setting?_ofTree hv.kind)
  rw [ownSettings, hsetting, hsetting, writtenSettings]

/-! ## Texts -/

/-- An object with no name beside those of the options, each with true, false or null as its last
value. -/
structure Acceptable (t : Tree Element) : Prop where
  object : t.value.kind = .object
  known : ∀ name ∈ writtenNames t, name ∈ optionNames.map Text.units
  typed : ∀ option ∈ optionNames, mistyped t option = false

/-- Where no parent is written, a value has no issues exactly if its element is acceptable. -/
theorem issues_eq_nil_iff (h : IsValue True t) (hparent : parentName ∉ writtenNames t) :
    issues (Value.ofTree t) = [] ↔ Acceptable t := by
  by_cases hkind : t.value.kind = .object
  · obtain ⟨unknown, -, hunknown, hissues⟩ := issues_object h hkind hparent
    rw [hissues, List.append_eq_nil_iff, List.map_eq_nil_iff, List.map_eq_nil_iff,
      List.filter_eq_nil_iff, List.eq_nil_iff_forall_not_mem]
    constructor
    · rintro ⟨hnone, htyped⟩
      refine ⟨hkind, ?_, by simpa using htyped⟩
      intro name hname
      by_contra hnot
      exact hnone name ((hunknown name).2 ⟨hname, hnot⟩)
    · rintro ⟨-, hknown, htyped⟩
      refine ⟨?_, by simpa using htyped⟩
      intro name hname
      exact ((hunknown name).1 hname).2 (hknown name ((hunknown name).1 hname).1)
  · rw [issues_of_not_object (ofTree_ne_object h.kind hkind)]
    simp only [List.cons_ne_nil, false_iff]
    exact fun haccept => hkind haccept.object

/-- The root of a text without faults is a complete value. -/
theorem isValue_of_parse (hfaults : (Document.parse dialect text).faults = [])
    (hroot : (Document.parse dialect text).root = some root) : IsValue True root := by
  have hrun := (Document.run_concludes dialect text).root root hroot
  exact hrun.mono fun _ => List.reverse_eq_nil_iff.1 hfaults

/-- A text without faults that has a root holds a value. -/
theorem holdsValue_of_parse (hfaults : (Document.parse dialect text).faults = [])
    (hroot : (Document.parse dialect text).root = some root) : HoldsValue text := by
  by_contra hnone
  have hempty :=
    (Document.run_concludes dialect text).unmet (List.reverse_eq_nil_iff.1 hfaults) hnone
  have hroot' : (Document.Parser.run dialect text).root = some root := hroot
  simp [hroot'] at hempty

/-- A text without faults that has no root holds no value. -/
theorem not_holdsValue_of_parse (hfaults : (Document.parse dialect text).faults = [])
    (hroot : (Document.parse dialect text).root = none) : ¬HoldsValue text := by
  intro hvalue
  have hsome := (Document.run_concludes dialect text).met (List.reverse_eq_nil_iff.1 hfaults) hvalue
  have hroot' : (Document.Parser.run dialect text).root = none := hroot
  simp [hroot'] at hsome

/-- A text with faults is rejected, and the faults are the issues. -/
theorem readUnits_of_faults (h : (Document.parse dialect text).faults ≠ []) :
    readUnits text file =
      .error (rejected file ((Document.parse dialect text).faults.map (Fault.describe text))) := by
  simp [readUnits, h]

/-- A text that holds nothing gives no settings. -/
theorem readUnits_of_none (hfaults : (Document.parse dialect text).faults = [])
    (hroot : (Document.parse dialect text).root = none) : readUnits text file = .ok {} := by
  simp [readUnits, hfaults, hroot]

/-- A text without faults gives the settings of its candidate, unless that has issues. -/
theorem readUnits_of_some (hfaults : (Document.parse dialect text).faults = [])
    (hroot : (Document.parse dialect text).root = some root) :
    readUnits text file =
      if issues (candidate (Value.ofTree root)) = [] then
        .ok (ownSettings (candidate (Value.ofTree root)))
      else .error (rejected file (issues (candidate (Value.ofTree root)))) := by
  simp only [readUnits, hfaults, hroot, List.isEmpty_nil, if_true]
  cases issues (candidate (Value.ofTree root)) <;> rfl

/-- Options written without a name that chooses a parent are accepted as they are written, or what
is wrong with them is listed. -/
theorem readUnits_of_not_mem (file : String)
    (hfaults : (Document.parse dialect text).faults = [])
    (hroot : (Document.parse dialect text).root = some root)
    (hparent : parentName ∉ writtenNames (optionsElement root)) :
    Acceptable (optionsElement root) ∧
        readUnits text file = .ok (writtenSettings (optionsElement root)) ∨
      ¬Acceptable (optionsElement root) ∧
        readUnits text file =
          .error (rejected file (issues (Value.ofTree (optionsElement root)))) := by
  have hvalue := isValue_of_parse hfaults hroot
  have hoptions := isValue_optionsElement hvalue
  rw [readUnits_of_some hfaults hroot, candidate_ofTree hvalue hparent]
  by_cases haccept : Acceptable (optionsElement root)
  · rw [if_pos ((issues_eq_nil_iff hoptions hparent).2 haccept),
      ownSettings_object hoptions haccept.object hparent]
    exact .inl ⟨haccept, rfl⟩
  · rw [if_neg (mt (issues_eq_nil_iff hoptions hparent).1 haccept)]
    exact .inr ⟨haccept, rfl⟩

/-! ## Unknown names -/

/-- In a text that is accepted, each name written among the options is that of an option, exactly if
none of them chooses a parent. -/
theorem names_of_accepted {s : Settings} (h : readUnits text file = .ok s)
    (hroot : (Document.parse dialect text).root = some root) :
    (∀ name ∈ writtenNames (optionsElement root), name ∈ optionNames.map Text.units) ↔
      parentName ∉ writtenNames (optionsElement root) := by
  constructor
  · intro hknown hmem
    have hoption : parentName ∉ optionNames.map Text.units := by decide +kernel
    exact hoption (hknown parentName hmem)
  · intro hparent
    have hfaults : (Document.parse dialect text).faults = [] := by
      by_contra hfaults
      rw [readUnits_of_faults hfaults] at h
      cases h
    rcases readUnits_of_not_mem file hfaults hroot hparent with ⟨haccept, -⟩ | ⟨-, hread⟩
    · exact haccept.known
    · rw [hread] at h
      cases h

/-- A section with an option, beside a name that is none. -/
def sectionText : List CodeUnit :=
  Text.units "\x7b\"theme\": 1, \"parseTreeInspector\": \x7b\"enableNavigation\": true\x7d\x7d"

/-- The element of `sectionText`. -/
def sectionRoot : Tree Element :=
  .node ⟨.object, 0, 62⟩
    [.node ⟨.property, 1, 11⟩
      [.node ⟨.string (Text.units "theme"), 1, 8⟩ [], .node ⟨.number, 10, 11⟩ []],
     .node ⟨.property, 13, 61⟩
      [.node ⟨.string (Text.units sectionName), 13, 33⟩ [],
       .node ⟨.object, 35, 61⟩
        [.node ⟨.property, 36, 60⟩
          [.node ⟨.string (Text.units "enableNavigation"), 36, 54⟩ [],
           .node ⟨.boolean true, 56, 60⟩ []]]]]

/-- The text with a section has no faults, and this element. -/
theorem parse_sectionText :
    (Document.parse dialect sectionText).faults = [] ∧
      (Document.parse dialect sectionText).root = some sectionRoot :=
  ⟨by decide +kernel, rfl⟩

/-- The text with a section gives the option of the section. -/
theorem readUnits_sectionText (file : String) :
    readUnits sectionText file = .ok { navigation := .given true } := by
  have hparent : parentName ∉ writtenNames (optionsElement sectionRoot) := by decide +kernel
  have haccept : Acceptable (optionsElement sectionRoot) :=
    ⟨by decide +kernel, by decide +kernel, by decide +kernel⟩
  have hgiven : writtenSettings (optionsElement sectionRoot) = { navigation := .given true } := by
    decide +kernel
  rcases readUnits_of_not_mem file parse_sectionText.1 parse_sectionText.2 hparent
    with ⟨-, hread⟩ | ⟨hnot, -⟩
  · rw [hread, hgiven]
  · exact absurd haccept hnot

/-- Read as a string, the text with a section gives the same. -/
theorem read_sectionText :
    readUnits sectionText defaultFile = .ok { navigation := .given true } :=
  readUnits_sectionText defaultFile

/-- The text with a section is accepted, and only the names in the section count. -/
theorem sectionText_names :
    readUnits sectionText defaultFile = .ok { navigation := .given true } ∧
      (Document.parse dialect sectionText).root = some sectionRoot ∧
      ∀ name ∈ writtenNames (optionsElement sectionRoot), name ∈ optionNames.map Text.units :=
  ⟨read_sectionText, parse_sectionText.2,
    (names_of_accepted read_sectionText parse_sectionText.2).2 (by decide +kernel)⟩

/-- A name that is no option, and a parent with a section. -/
def hidingText : List CodeUnit :=
  Text.units "\x7b\"theme\": 1, \"__proto__\": \x7b\"parseTreeInspector\": \x7b\x7d\x7d\x7d"

/-- The element of `hidingText`. -/
def hidingRoot : Tree Element :=
  .node ⟨.object, 0, 53⟩
    [.node ⟨.property, 1, 11⟩
      [.node ⟨.string (Text.units "theme"), 1, 8⟩ [], .node ⟨.number, 10, 11⟩ []],
     .node ⟨.property, 13, 52⟩
      [.node ⟨.string parentName, 13, 24⟩ [],
       .node ⟨.object, 26, 52⟩
        [.node ⟨.property, 27, 51⟩
          [.node ⟨.string (Text.units sectionName), 27, 47⟩ [],
           .node ⟨.object, 49, 51⟩ []]]]]

/-- The text with a parent has no faults, and this element. -/
theorem parse_hidingText :
    (Document.parse dialect hidingText).faults = [] ∧
      (Document.parse dialect hidingText).root = some hidingRoot :=
  ⟨by decide +kernel, rfl⟩

/-- The section of the parent takes the place of what is written at the top. -/
theorem candidate_hidingRoot : candidate (Value.ofTree hidingRoot) = .object [] none := by
  have htheme : Text.units "theme" ≠ parentName := by decide +kernel
  have hsection : Text.units "theme" ≠ Text.units sectionName := by decide +kernel
  simp [hidingRoot, candidate, Value.ofTree, Tree.fold, Tree.folds, Value.partOf, Value.ofEntries,
    Value.putEntry, htheme, hsection, section_ne_parentName, put, Value.choosesParent,
    Value.lookup?, get?]

/-- The text with a parent is accepted, though a name in it is no option. -/
theorem read_hidingText : readUnits hidingText defaultFile = .ok {} := by
  have hempty : IsValue True (.node ⟨.object, 49, 51⟩ []) :=
    ⟨.node (.members (by simp [Tree.children])) (by simp), by decide⟩
  have hissues : issues (.object [] none) = [] :=
    (issues_eq_nil_iff hempty (by decide +kernel)).2 ⟨rfl, by decide +kernel, by decide +kernel⟩
  rw [readUnits_of_some parse_hidingText.1 parse_hidingText.2, candidate_hidingRoot, if_pos hissues]
  rfl

/-- A text is accepted with a name that is no option. -/
theorem accepted_with_unknown_name :
    ¬∀ text file s root, readUnits text file = .ok s →
      (Document.parse dialect text).root = some root →
      ∀ name ∈ writtenNames (optionsElement root), name ∈ optionNames.map Text.units := by
  intro hall
  have hknown := hall hidingText defaultFile {} hidingRoot read_hidingText parse_hidingText.2
  have htheme : Text.units "theme" ∈ writtenNames (optionsElement hidingRoot) := by decide +kernel
  have hoption : Text.units "theme" ∉ optionNames.map Text.units := by decide +kernel
  exact hoption (hknown _ htheme)

/-! ## All texts -/

/-- The lists of issues with which a text is rejected. -/
inductive Explains (text : List CodeUnit) : List String → Prop where
  | faults (faulty : (Document.parse dialect text).faults ≠ []) :
      Explains text ((Document.parse dialect text).faults.map (Fault.describe text))
  | notObject {root : Tree Element} (sound : (Document.parse dialect text).faults = [])
      (root_eq : (Document.parse dialect text).root = some root)
      (kind : (optionsElement root).value.kind ≠ .object) : Explains text ["/: must be object"]
  | members {root : Tree Element} {unknown : List Name}
      (sound : (Document.parse dialect text).faults = [])
      (root_eq : (Document.parse dialect text).root = some root)
      (kind : (optionsElement root).value.kind = .object) (once : unknown.Nodup)
      (unknown_iff : ∀ name, name ∈ unknown ↔
        name ∈ writtenNames (optionsElement root) ∧ name ∉ optionNames.map Text.units) :
      Explains text (unknown.map unknownIssue ++
        (optionNames.filter (mistyped (optionsElement root))).map mistypedIssue)

/-- Some property of the text has the name, at any depth. -/
def Writes (name : Name) (text : List CodeUnit) : Prop :=
  ∃ root place t, (Document.parse dialect text).root = some root ∧
    Tree.subtree? root place = some t ∧ name ∈ writtenNames t

/-- The value of a member stands somewhere in the element. -/
theorem subtree?_of_mem_members {m : Name × Tree Element} (hm : m ∈ members t) :
    ∃ place, t.subtree? place = some m.2 := by
  rw [members, List.mem_filterMap] at hm
  obtain ⟨c, hc, hmember⟩ := hm
  obtain ⟨i, hi⟩ := List.mem_iff_getElem?.1 hc
  unfold member? at hmember
  split at hmember
  · cases hmember
    refine ⟨[i, 1], ?_⟩
    rw [Tree.subtree?, hi]
    rfl
  · cases hmember

/-- A name that a text does not write is not written in its options either. -/
theorem not_mem_of_not_writes (h : ¬Writes name text)
    (hroot : (Document.parse dialect text).root = some root) :
    name ∉ writtenNames (optionsElement root) := by
  intro hmem
  have hplace : ∃ place, root.subtree? place = some (optionsElement root) := by
    rw [optionsElement]
    cases hlast : last? (Text.units sectionName) (members root) with
    | none => exact ⟨[], rfl⟩
    | some v => exact subtree?_of_mem_members (mem_of_last? hlast)
  obtain ⟨place, hplace⟩ := hplace
  exact h ⟨root, place, _, hroot, hplace, hmem⟩

/-- Where no parent is written, the issues of the options explain why the text is rejected. -/
theorem explains_issues (hfaults : (Document.parse dialect text).faults = [])
    (hroot : (Document.parse dialect text).root = some root)
    (hparent : parentName ∉ writtenNames (optionsElement root)) :
    Explains text (issues (Value.ofTree (optionsElement root))) := by
  have hoptions := isValue_optionsElement (isValue_of_parse hfaults hroot)
  by_cases hkind : (optionsElement root).value.kind = .object
  · obtain ⟨unknown, honce, hunknown, hissues⟩ := issues_object hoptions hkind hparent
    rw [hissues]
    exact .members hfaults hroot hkind honce hunknown
  · rw [issues_of_not_object (ofTree_ne_object hoptions.kind hkind)]
    exact .notObject hfaults hroot hkind

/-- A text that names no parent is accepted exactly if it has no faults, and has no value or options
that are acceptable; it then gives what it writes. A text that is rejected is rejected with all that
is wrong with it. -/
theorem readUnits_exact (text : List CodeUnit) (file : String)
    (hparent : ¬Writes parentName text) :
    ((∃ s, readUnits text file = .ok s) ↔
      (Document.parse dialect text).faults = [] ∧
        (¬HoldsValue text ∨ ∃ root, (Document.parse dialect text).root = some root ∧
          Acceptable (optionsElement root))) ∧
    (∀ s, readUnits text file = .ok s →
      ¬HoldsValue text ∧ s = {} ∨
        ∃ root, (Document.parse dialect text).root = some root ∧
          s = writtenSettings (optionsElement root)) ∧
    ∀ e, readUnits text file = .error e →
      ∃ wrong, e = rejected file wrong ∧ Explains text wrong := by
  by_cases hfaults : (Document.parse dialect text).faults = []
  · cases hroot : (Document.parse dialect text).root with
    | none =>
      have hnone := not_holdsValue_of_parse hfaults hroot
      rw [readUnits_of_none hfaults hroot]
      refine ⟨iff_of_true ⟨_, rfl⟩ ⟨hfaults, .inl hnone⟩, ?_, ?_⟩
      · rintro s ⟨⟩
        exact .inl ⟨hnone, rfl⟩
      · rintro e ⟨⟩
    | some root =>
      have hvalue := holdsValue_of_parse hfaults hroot
      have hparent' := not_mem_of_not_writes hparent hroot
      rcases readUnits_of_not_mem file hfaults hroot hparent' with
        ⟨haccept, hread⟩ | ⟨hnot, hread⟩
      · rw [hread]
        refine ⟨iff_of_true ⟨_, rfl⟩ ⟨hfaults, .inr ⟨root, rfl, haccept⟩⟩, ?_, ?_⟩
        · rintro s ⟨⟩
          exact .inr ⟨root, rfl, rfl⟩
        · rintro e ⟨⟩
      · rw [hread]
        refine ⟨iff_of_false ?_ ?_, ?_, ?_⟩
        · rintro ⟨s, ⟨⟩⟩
        · rintro ⟨-, hnone | ⟨root', hsame, haccept⟩⟩
          · exact hnone hvalue
          · cases hsame
            exact hnot haccept
        · rintro s ⟨⟩
        · rintro e ⟨⟩
          exact ⟨_, rfl, explains_issues hfaults hroot hparent'⟩
  · rw [readUnits_of_faults hfaults]
    refine ⟨iff_of_false ?_ fun h => hfaults h.1, ?_, ?_⟩
    · rintro ⟨s, ⟨⟩⟩
    · rintro s ⟨⟩
    · rintro e ⟨⟩
      exact ⟨_, rfl, .faults hfaults⟩

/-- An option that is written twice, the first time with a value of another type. -/
def repeatedText : List CodeUnit :=
  Text.units "\x7b\"enableNavigation\": 1, \"enableNavigation\": true\x7d"

/-- The element of `repeatedText`. -/
def repeatedRoot : Tree Element :=
  .node ⟨.object, 0, 49⟩
    [.node ⟨.property, 1, 22⟩
      [.node ⟨.string (Text.units "enableNavigation"), 1, 19⟩ [], .node ⟨.number, 21, 22⟩ []],
     .node ⟨.property, 24, 48⟩
      [.node ⟨.string (Text.units "enableNavigation"), 24, 42⟩ [],
       .node ⟨.boolean true, 44, 48⟩ []]]

/-- The text with an option that is written twice has no faults, and this element. -/
theorem parse_repeatedText :
    (Document.parse dialect repeatedText).faults = [] ∧
      (Document.parse dialect repeatedText).root = some repeatedRoot :=
  ⟨by decide +kernel, rfl⟩

/-- The text with an option that is written twice names no parent. -/
theorem repeatedText_not_writes : ¬Writes parentName repeatedText := by
  have hnowhere : repeatedRoot.Throughout fun t => parentName ∉ writtenNames t := by
    have hleaf : ∀ e, (Tree.node e []).Throughout fun t => parentName ∉ writtenNames t :=
      fun e => .node (by simp [writtenNames, members, Tree.children]) (by simp)
    refine .node (by decide +kernel) ?_
    simp only [List.forall_mem_cons]
    refine ⟨.node (by decide +kernel) ?_, .node (by decide +kernel) ?_, by simp⟩ <;>
      simp [hleaf]
  rintro ⟨root, place, t, hroot, ht, hmem⟩
  rw [parse_repeatedText.2] at hroot
  cases hroot
  exact hnowhere.of_subtree ht hmem

/-- The text with an option that is written twice is accepted, since the last value counts. -/
theorem repeatedText_accepted :
    ¬Writes parentName repeatedText ∧ ∃ s, readUnits repeatedText defaultFile = .ok s := by
  have haccept : Acceptable (optionsElement repeatedRoot) :=
    ⟨by decide +kernel, by decide +kernel, by decide +kernel⟩
  refine ⟨repeatedText_not_writes, ?_⟩
  rw [(readUnits_exact repeatedText defaultFile repeatedText_not_writes).1]
  exact ⟨parse_repeatedText.1, .inr ⟨repeatedRoot, parse_repeatedText.2, haccept⟩⟩

end TreeInspector.Config
