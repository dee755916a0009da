import Mathlib.Data.List.Perm.Basic
import TreeInspector.CommandLine.Arguments

/-!
# The order of what is typed

Behind the program's name the user types items: the name of the file, switches, and the path of a
configuration in either of its written forms, whose value may look like anything. Each item that is
read adds what it says and leaves the rest of the reading alone. So only the order of the paths
matters, of which the last one counts, and there has to be one file.
-/

set_option autoImplicit false

namespace TreeInspector.CommandLine

/-! ## Items -/

/-- An item as the user types it. The path of a configuration is attached to its option or follows
as an argument of its own. -/
inductive Item where
  | file (name : String)
  | navigation
  | highlight
  | noWatch
  | config (attached : Bool) (path : String)
  deriving DecidableEq

namespace Item

/-- The arguments that an item is written with. -/
def written : Item → List String
  | .file name => [name]
  | .navigation => ["--navigation"]
  | .highlight => ["--highlight"]
  | .noWatch => ["--no-watch"]
  | .config true path => ["--config=" ++ path]
  | .config false path => ["--config", path]

/-- The name of the file, if the item is one. -/
def file? : Item → Option String
  | .file name => some name
  | _ => none

/-- The path of the configuration, if the item gives one. -/
def path? : Item → Option String
  | .config _ path => some path
  | _ => none

/-- No name of a file begins with a dash. -/
def IsPlain : Item → Prop
  | .file name => name.toList.head? ≠ some '-'
  | _ => True

instance (item : Item) : Decidable item.IsPlain :=
  match item with
  | .file name => inferInstanceAs (Decidable (name.toList.head? ≠ some '-'))
  | .navigation => isTrue trivial
  | .highlight => isTrue trivial
  | .noWatch => isTrue trivial
  | .config _ _ => isTrue trivial

end Item

/-- The arguments of a whole command line. -/
def written (items : List Item) : List String := items.flatMap Item.written

/-- The files that are named, in order. -/
def files (items : List Item) : List String := items.filterMap Item.file?

/-- The paths of configurations that are given, in order. -/
def paths (items : List Item) : List String := items.filterMap Item.path?

/-- The files of a list of items are those of the first one and then those of the others. -/
@[simp]
theorem files_cons (item : Item) (items : List Item) :
    files (item :: items) = item.file?.toList ++ files items := by
  cases item <;> rfl

/-- The paths of a list of items are those of the first one and then those of the others. -/
@[simp]
theorem paths_cons (item : Item) (items : List Item) :
    paths (item :: items) = item.path?.toList ++ paths items := by
  cases item <;> rfl

namespace Reading

/-- What an item adds to what has been read. -/
def adding (r : Reading) : Item → Reading
  | .file name => { r with operands := name :: r.operands }
  | .navigation => { r with navigation := true }
  | .highlight => { r with highlight := true }
  | .noWatch => { r with watch := false }
  | .config _ path => { r with config := some path }

/-- An item adds nothing to the unknown arguments. -/
theorem unknown_adding (r : Reading) (item : Item) : (r.adding item).unknown = r.unknown := by
  cases item <;> rfl

/-! ## Reading one item -/

/-- The arguments that mean something just as they are. -/
def reserved : List String := ["--", "--navigation", "--highlight", "--no-watch", "--config"]

/-- Any other argument is an attached path or none of the options. -/
theorem scan_unreserved (r : Reading) {argument : String} (h : argument ∉ reserved)
    (rest : List String) :
    r.scan (argument :: rest) =
      (configValue? argument).elim ((r.addOther argument).scan rest)
        fun path => { r with config := some path }.scan rest := by
  simp only [reserved, List.mem_cons, List.not_mem_nil, or_false, not_or] at h
  obtain ⟨hend, hnavigation, hhighlight, hwatch, hconfig⟩ := h
  rw [scan.eq_def]
  simp only [hend, hnavigation, hhighlight, hwatch, hconfig, if_false]
  cases configValue? argument with
  | none => rfl
  | some path => rfl

/-- A name without a dash in front is added to the operands. -/
theorem scan_file {r : Reading} (hr : r.unknown = []) {name : String}
    (hname : name.toList.head? ≠ some '-') (rest : List String) :
    r.scan (name :: rest) = (r.adding (.file name)).scan rest := by
  have hreserved : name ∉ reserved := by
    intro hmem
    have hdash : ∀ argument ∈ reserved, argument.toList.head? = some '-' := by decide
    exact hname (hdash name hmem)
  have hvalue : configValue? name = none := by
    unfold configValue?
    rw [if_neg]
    intro hstart
    apply hname
    obtain ⟨path, hpath⟩ := List.isPrefixOf_iff_prefix.1 hstart
    rw [← hpath]
    rfl
  have hlooks : looksLikeOption name = false := by
    unfold looksLikeOption
    split
    next c rest hdash =>
      rw [hdash] at hname
      exact absurd rfl hname
    next => rfl
  have hother : r.addOther name = r.adding (.file name) := by
    simp [addOther, addOthers, adding, hlooks, hr]
  rw [scan_unreserved r hreserved, hvalue]
  exact congrArg (fun r : Reading => r.scan rest) hother

/-- An attached path stands behind the name of its option. -/
theorem attached_begins (path : String) :
    "--config=".toList <+: ("--config=" ++ path).toList := by
  rw [String.toList_append]
  exact List.prefix_append _ _

/-- The value of an attached path is the path. -/
theorem configValue?_attached (path : String) : configValue? ("--config=" ++ path) = some path := by
  have hdrop : ("--config=".toList ++ path.toList).drop "--config=".length = path.toList :=
    List.drop_left
  unfold configValue?
  rw [if_pos (List.isPrefixOf_iff_prefix.2 (attached_begins path)), String.toList_append, hdrop,
    String.ofList_toList]

/-- A path that is attached to its option is never taken for another option. -/
theorem scan_attached (r : Reading) (path : String) (rest : List String) :
    r.scan (("--config=" ++ path) :: rest) = (r.adding (.config true path)).scan rest := by
  have hreserved : "--config=" ++ path ∉ reserved := by
    intro hmem
    have hshort : ∀ argument ∈ reserved, ¬"--config=".toList <+: argument.toList := by decide
    exact hshort _ hmem (attached_begins path)
  rw [scan_unreserved r hreserved, configValue?_attached]
  rfl

/-- A plain item is read as what it stands for, and the scan goes on behind it. -/
theorem scan_item {r : Reading} (hr : r.unknown = []) {item : Item} (hitem : item.IsPlain)
    (rest : List String) : r.scan (item.written ++ rest) = (r.adding item).scan rest := by
  cases item with
  | file name => exact scan_file hr hitem rest
  | navigation =>
    show r.scan ("--navigation" :: rest) = _
    rw [scan.eq_def]
    simp [adding]
  | highlight =>
    show r.scan ("--highlight" :: rest) = _
    rw [scan.eq_def]
    simp [adding]
  | noWatch =>
    show r.scan ("--no-watch" :: rest) = _
    rw [scan.eq_def]
    simp [adding]
  | config attached path =>
    cases attached with
    | true => exact scan_attached r path rest
    | false =>
      show r.scan ("--config" :: path :: rest) = _
      rw [scan.eq_def]
      simp [adding]

/-! ## Reading all items -/

/-- Plain items, written one after another, are read as what they stand for. -/
theorem scan_written {r : Reading} (hr : r.unknown = []) {items : List Item}
    (hitems : ∀ item ∈ items, item.IsPlain) :
    r.scan (written items) = .ok (items.foldl adding r) := by
  induction items generalizing r with
  | nil => rw [written, List.flatMap_nil, scan.eq_def, List.foldl_nil]
  | cons item items ih =>
    obtain ⟨hitem, hrest⟩ := List.forall_mem_cons.1 hitems
    have hunknown : (r.adding item).unknown = [] := by rw [unknown_adding, hr]
    rw [written, List.flatMap_cons, scan_item hr hitem, List.foldl_cons]
    exact ih hunknown hrest

/-- What has been read after some items. -/
theorem foldl_adding (items : List Item) (r : Reading) :
    items.foldl adding r =
      { config := (paths items).getLast?.or r.config
        navigation := decide (.navigation ∈ items) || r.navigation
        highlight := decide (.highlight ∈ items) || r.highlight
        watch := !decide (.noWatch ∈ items) && r.watch
        operands := (files items).reverse ++ r.operands
        unknown := r.unknown } := by
  induction items generalizing r with
  | nil => simp [paths, files]
  | cons item items ih =>
    rw [List.foldl_cons, ih]
    cases item with
    | file name => simp [adding, Item.path?, Item.file?]
    | navigation => simp [adding, Item.path?, Item.file?]
    | highlight => simp [adding, Item.path?, Item.file?]
    | noWatch => simp [adding, Item.path?, Item.file?]
    | config attached path =>
      -- A path counts only if no other one follows it.
      have hlast : (paths items).getLast?.or (some path) =
          (path :: paths items).getLast?.or r.config := by
        rw [List.getLast?_cons]
        cases (paths items).getLast? <;> rfl
      simp [adding, Item.path?, Item.file?, hlast]

end Reading

/-! ## What is asked for -/

/-- A message whose last line is the given one. -/
def EndsWithLine (message line : String) : Prop :=
  '\n' ∉ line.toList ∧ ∃ before, message = before ++ "\n" ++ line

/-- Every refusal of the arguments ends with the line on usage. -/
theorem ArgumentError.message_endsWithLine (e : ArgumentError) : EndsWithLine e.message usage :=
  ⟨by decide, _, rfl⟩

section

variable {items : List Item}

/-- What items ask for depends on the files that they name, on the last path and on which switches
are among them. -/
theorem ofArguments_written (hitems : ∀ item ∈ items, item.IsPlain) :
    Request.ofArguments (written items) =
      match files items with
      | [] => .error .fileMissing
      | [file] => .ok (.inspect
          { file := file
            config := (paths items).getLast?
            navigation := .navigation ∈ items
            highlight := .highlight ∈ items
            watch := .noWatch ∉ items })
      | several => .error (.tooMany several.length) := by
  unfold Request.ofArguments
  rw [Reading.scan_written rfl hitems, Reading.foldl_adding]
  simp only [bind, Except.bind, List.append_nil, List.reverse_reverse]
  cases files items with
  | nil => rfl
  | cons file others =>
    cases others with
    | nil => simp [pure, Except.pure]
    | cons other others => rfl

/-- Items in another order ask for the same if the paths are in the same order. -/
theorem ofArguments_perm (hitems : ∀ item ∈ items, item.IsPlain) {items' : List Item}
    (hperm : items.Perm items') (hpaths : paths items = paths items') :
    Request.ofArguments (written items) = Request.ofArguments (written items') := by
  have hmem : ∀ item, item ∈ items ↔ item ∈ items' := fun item => hperm.mem_iff
  have hitems' : ∀ item ∈ items', item.IsPlain := by
    intro item hitem
    exact hitems item ((hmem item).2 hitem)
  have hfiles : (files items).Perm (files items') := hperm.filterMap Item.file?
  rw [ofArguments_written hitems, ofArguments_written hitems', hpaths]
  simp only [hmem]
  cases hthese : files items with
  | nil =>
    rw [hthese] at hfiles
    rw [List.nil_perm.1 hfiles]
  | cons file others =>
    cases others with
    | nil =>
      rw [hthese] at hfiles
      rw [List.singleton_perm.1 hfiles]
    | cons other others =>
      have hlength := hfiles.length_eq
      rw [hthese] at hlength
      cases hthose : files items' with
      | nil => simp [hthose] at hlength
      | cons file' others' =>
        rw [hthose] at hlength
        cases others' with
        | nil => simp at hlength
        | cons other' others' => simp only [hlength]

/-- The items of a command line may come in any order. One file is inspected, with the switches that
occur and with the last path that is given. No file or several ones are refused, with a message that
ends with how the program is called. Items in another order ask for the same, as long as the paths
are given in the same order. -/
theorem items_in_any_order (hitems : ∀ item ∈ items, item.IsPlain) :
    (∀ file, files items = [file] →
      Request.ofArguments (written items) = .ok (.inspect
        { file := file
          config := (paths items).getLast?
          navigation := .navigation ∈ items
          highlight := .highlight ∈ items
          watch := .noWatch ∉ items })) ∧
    ((files items).length ≠ 1 → ∃ e, Request.ofArguments (written items) = .error e ∧
      EndsWithLine e.message usage) ∧
    ∀ items', items.Perm items' → paths items = paths items' →
      Request.ofArguments (written items') = Request.ofArguments (written items) := by
  refine ⟨?_, ?_, ?_⟩
  · intro file hfile
    rw [ofArguments_written hitems, hfile]
  · intro hlength
    rw [ofArguments_written hitems]
    cases hfiles : files items with
    | nil => exact ⟨_, rfl, ArgumentError.message_endsWithLine _⟩
    | cons file others =>
      cases others with
      | nil =>
        rw [hfiles] at hlength
        exact absurd rfl hlength
      | cons other others => exact ⟨_, rfl, ArgumentError.message_endsWithLine _⟩
  · intro items' hperm hpaths
    exact (ofArguments_perm hitems hperm hpaths).symm

end

/-- A path that looks like a switch stays a path, a later one that is attached to its option counts
instead, and the switches may as well come first. With a second file the items are refused. -/
theorem switchAsPath_in_any_order :
    let items : List Item := [.config false "--no-watch", .file "a.json", .highlight,
      .config true "--", .highlight]
    (∀ item ∈ items, item.IsPlain) ∧
      Request.ofArguments ["--config", "--no-watch", "a.json", "--highlight", "--config=--",
        "--highlight"] =
        .ok (.inspect { file := "a.json", config := some "--", highlight := true }) ∧
      Request.ofArguments ["--highlight", "--highlight", "--config", "--no-watch", "--config=--",
        "a.json"] =
        .ok (.inspect { file := "a.json", config := some "--", highlight := true }) ∧
      ∃ e, Request.ofArguments (written (.file "b.json" :: items)) = .error e ∧
        EndsWithLine e.message usage := by
  intro items
  let sorted : List Item := [.highlight, .highlight, .config false "--no-watch", .config true "--",
    .file "a.json"]
  have hitems : ∀ item ∈ items, item.IsPlain := by decide
  have hmore : ∀ item ∈ .file "b.json" :: items, item.IsPlain := by decide
  obtain ⟨hone, -, hsame⟩ := items_in_any_order hitems
  have hinspect := hone "a.json" rfl
  refine ⟨hitems, hinspect, ?_, (items_in_any_order hmore).2.1 (by decide)⟩
  exact (hsame sorted (by decide) rfl).trans hinspect

end TreeInspector.CommandLine
