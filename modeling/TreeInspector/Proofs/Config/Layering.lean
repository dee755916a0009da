import TreeInspector.Config.Load
import TreeInspector.Proofs.Config.Acceptance
import TreeInspector.Proofs.Text.Utf8

/-!
# Layers of options

Each option is taken from the uppermost layer that gives it: what was asked, then the configuration
file, then the defaults. Reading the file comes first and does not look at what was asked, so it
fails for the file's sake alone. What the file gives are the entries that the object with the options
has itself; what that object inherits is checked but not taken, and null gives nothing.
-/

set_option autoImplicit false

namespace TreeInspector

/-! ## Options by name -/

namespace Config

/-- The options. -/
inductive OptionKey where
  | navigation
  | highlight

/-- The name under which a configuration gives an option. -/
def OptionKey.name : OptionKey → String
  | .navigation => "enableNavigation"
  | .highlight => "highlightOnNavigate"

/-- What a layer says about an option. -/
def OptionKey.setting (s : Settings) : OptionKey → Setting
  | .navigation => s.navigation
  | .highlight => s.highlight

/-- The value of an option. -/
def OptionKey.value (o : Options) : OptionKey → Bool
  | .navigation => o.navigation
  | .highlight => o.highlight

/-- What is said about an option that is asked for, or not mentioned. -/
def Asked.setting : Option Bool → Setting
  | some b => .given b
  | none => .absent

/-- The layer of what was asked. -/
def asking (asked : OptionKey → Option Bool) : Settings :=
  { navigation := Asked.setting (asked .navigation)
    highlight := Asked.setting (asked .highlight) }

/-- What is asked for is what the request gives. -/
theorem setting_asking (asked : OptionKey → Option Bool) (key : OptionKey) :
    key.setting (asking asked) = Asked.setting (asked key) := by
  cases key <;> rfl

/-- An option has the value that its setting resolves to. -/
theorem value_resolve (s : Settings) (key : OptionKey) :
    key.value s.resolve = (key.setting s).resolve (key.value defaultOptions) := by
  cases key <;> rfl

/-- Settings are laid over others option by option. -/
theorem setting_overlay (upper lower : Settings) (key : OptionKey) :
    key.setting (upper.overlay lower) = (key.setting upper).overlay (key.setting lower) := by
  cases key <;> rfl

/-- The setting of an option is the one under its name. -/
theorem setting_ownSettings (options : Value) (key : OptionKey) :
    key.setting (ownSettings options) = ownSetting options key.name := by
  cases key <;> rfl

/-! ## What a file gives -/

/-- The object that holds the options of a text has an entry of its own for the option, which is
true or false. -/
def Gives (text : String) (key : OptionKey) (b : Bool) : Prop :=
  ∃ root own parent, (Document.parse dialect (Text.units text)).root = some root ∧
    candidate (Value.ofTree root) = .object own parent ∧
    get? (Text.units key.name) own = some (.boolean b)

/-- A setting is given by an object that has true or false under the name of the option. -/
theorem ownSetting_eq_given_iff {options : Value} {name : String} {b : Bool} :
    ownSetting options name = .given b ↔
      ∃ own parent, options = .object own parent ∧ get? (Text.units name) own = some (.boolean b) := by
  constructor
  · intro h
    cases options with
    | object own parent =>
      refine ⟨own, parent, rfl, ?_⟩
      rw [ownSetting] at h
      cases hget : get? (Text.units name) own with
      | none => simp [hget] at h
      | some v => cases v <;> simp_all
    | _ => cases h
  · rintro ⟨own, parent, rfl, hget⟩
    rw [ownSetting, hget]

/-- Of a text that is accepted, what it gives is what the settings read from it give. -/
theorem setting_of_read {text file : String} {s : Settings} (h : read text file = .ok s)
    (key : OptionKey) (b : Bool) : key.setting s = .given b ↔ Gives text key b := by
  rw [read] at h
  have hfaults : (Document.parse dialect (Text.units text)).faults = [] := by
    by_contra hfaults
    rw [readUnits_of_faults hfaults] at h
    cases h
  cases hroot : (Document.parse dialect (Text.units text)).root with
  | none =>
    rw [readUnits_of_none hfaults hroot] at h
    cases h
    refine iff_of_false (by cases key <;> simp [OptionKey.setting]) ?_
    rintro ⟨root, own, parent, hsome, -, -⟩
    rw [hroot] at hsome
    cases hsome
  | some root =>
    rw [readUnits_of_some hfaults hroot] at h
    have hs : s = ownSettings (candidate (Value.ofTree root)) := by
      split at h
      · exact (Except.ok.inj h).symm
      · cases h
    rw [hs, setting_ownSettings, ownSetting_eq_given_iff]
    constructor
    · rintro ⟨own, parent, hobject, hget⟩
      exact ⟨root, own, parent, hroot, hobject, hget⟩
    · rintro ⟨root', own, parent, hroot', hobject, hget⟩
      rw [hroot] at hroot'
      cases hroot'
      exact ⟨own, parent, hobject, hget⟩

/-- Every text that is not accepted is rejected as a configuration. -/
theorem error_of_read {text file : String} {e : Failure} (h : read text file = .error e) :
    ∃ wrong, e = rejected file wrong := by
  rw [read] at h
  by_cases hfaults : (Document.parse dialect (Text.units text)).faults = []
  · cases hroot : (Document.parse dialect (Text.units text)).root with
    | none =>
      rw [readUnits_of_none hfaults hroot] at h
      cases h
    | some root =>
      rw [readUnits_of_some hfaults hroot] at h
      split at h
      · cases h
      · exact ⟨_, (Except.error.inj h).symm⟩
  · rw [readUnits_of_faults hfaults] at h
    exact ⟨_, (Except.error.inj h).symm⟩

/-- An empty text gives no settings. -/
theorem read_empty (file : String) : read "" file = .ok {} :=
  readUnits_of_none rfl rfl

/-! ## Loading -/

/-- The request for a configuration from a directory and a file, if these are named, with what was
asked. -/
def requesting (directory file : Option String) (asked : OptionKey → Option Bool) : Request :=
  { directory := directory, file := file, overrides := asking asked }

/-- The path of the configuration file, which does not depend on what was asked. -/
def requestedPath (disk : Disk) (directory file : Option String) : Path :=
  (requesting directory file fun _ => none).path disk

/-- The file at the path cannot be read, other than that a file that nobody named is missing. -/
def Unreadable (disk : Disk) (path : Path) (file : Option String) : Prop :=
  ∃ e, disk.readText path = .error e ∧ ¬(file = none ∧ e.isMissingFile = true)

/-- The file at the path can be read, but its text is not accepted. -/
def Rejected (disk : Disk) (path : Path) : Prop :=
  ∃ text e, disk.readText path = .ok text ∧ read text path.text = .error e

/-- The file at the path can be read and gives the option. -/
def FileGives (disk : Disk) (path : Path) (key : OptionKey) (b : Bool) : Prop :=
  ∃ text, disk.readText path = .ok text ∧ Gives text key b

section

variable {disk : Disk} {directory file : Option String} {asked : OptionKey → Option Bool}

/-- Where a text can be read, its settings are laid under those asked for, and its file is named. -/
theorem load_of_text {text : String}
    (h : disk.readText (requestedPath disk directory file) = .ok text) :
    load disk (requesting directory file asked) =
      (read text (requestedPath disk directory file).text).map fun s =>
        ⟨((asking asked).overlay s).resolve, some (requestedPath disk directory file)⟩ := by
  have hfile : readFile disk (requestedPath disk directory file) file.isSome =
      .ok (some text) := by
    rw [readFile, h]
  have hload : load disk (requesting directory file asked) = (do
      let settings ← read text (requestedPath disk directory file).text
      return ⟨((asking asked).overlay settings).resolve,
        some (requestedPath disk directory file)⟩) :=
    congrArg (fun content => content >>= _) hfile
  rw [hload]
  cases read text (requestedPath disk directory file).text <;> rfl

/-- Where a file that nobody named is missing, only what is asked for counts, and no file is named.
-/
theorem load_of_missing {e : Failure}
    (h : disk.readText (requestedPath disk directory none) = .error e)
    (hmissing : e.isMissingFile = true) :
    load disk (requesting directory none asked) = .ok ⟨(asking asked).resolve, none⟩ := by
  have hfile : readFile disk (requestedPath disk directory none) false = .ok none := by
    simp [readFile, h, hmissing]
  exact congrArg (fun content => content >>= _) hfile

/-- A file that cannot be read is an error, unless nobody named it and it is missing. -/
theorem load_of_unreadable {e : Failure}
    (h : disk.readText (requestedPath disk directory file) = .error e)
    (hmissing : ¬(file = none ∧ e.isMissingFile = true)) :
    load disk (requesting directory file asked) =
      .error (.view (.config ("Unable to read configuration file " ++
        (requestedPath disk directory file).text ++ ": " ++ e.message) [])) := by
  have hfile : readFile disk (requestedPath disk directory file) file.isSome =
      .error (.view (.config ("Unable to read configuration file " ++
        (requestedPath disk directory file).text ++ ": " ++ e.message) [])) := by
    simpa [readFile, h] using hmissing
  exact congrArg (fun content => content >>= _) hfile

/-- The options in force: each is taken from the uppermost layer that gives it. -/
structure Layered (disk : Disk) (path : Path) (asked : OptionKey → Option Bool) (o : Options) :
    Prop where
  fromRequest : ∀ key b, asked key = some b → key.value o = b
  fromFile : ∀ key b, asked key = none → FileGives disk path key b → key.value o = b
  fromDefaults : ∀ key, asked key = none → (∀ b, ¬FileGives disk path key b) →
    key.value o = key.value defaultOptions

/-- What was asked stands; where nothing was, the layer below decides. -/
theorem value_asked {asked : OptionKey → Option Bool} {lower : Settings} (key : OptionKey) :
    key.value ((asking asked).overlay lower).resolve =
      (asked key).getD ((key.setting lower).resolve (key.value defaultOptions)) := by
  rw [value_resolve, setting_overlay, setting_asking]
  cases asked key <;> rfl

/-- The settings asked for, over those of the file, are layered. -/
theorem layered_of_read {path : Path} {text : String} {s : Settings}
    (htext : disk.readText path = .ok text) (hread : read text path.text = .ok s) :
    Layered disk path asked ((asking asked).overlay s).resolve := by
  have hgives : ∀ key b, FileGives disk path key b ↔ key.setting s = .given b := by
    intro key b
    rw [setting_of_read hread]
    constructor
    · rintro ⟨text', htext', hgives⟩
      rw [htext] at htext'
      cases htext'
      exact hgives
    · exact fun hgives => ⟨text, htext, hgives⟩
  refine ⟨?_, ?_, ?_⟩
  · intro key b hasked
    rw [value_asked, hasked, Option.getD_some]
  · intro key b hasked hfile
    rw [value_asked, hasked, (hgives key b).1 hfile, Option.getD_none, Setting.resolve]
  · intro key hasked hnone
    rw [value_asked, hasked, Option.getD_none]
    cases hsetting : key.setting s with
    | given b => exact absurd ((hgives key b).2 hsetting) (hnone b)
    | _ => rfl

/-- A file that says nothing is as good as no file. -/
theorem overlay_nothing (s : Settings) : s.overlay {} = s := by
  obtain ⟨navigation, highlight⟩ := s
  cases navigation <;> cases highlight <;> rfl

/-- Without a file, the settings asked for are layered. -/
theorem layered_of_unread {path : Path} {e : Failure} (h : disk.readText path = .error e) :
    Layered disk path asked (asking asked).resolve := by
  have hgives : ∀ key b, ¬FileGives disk path key b := by
    rintro key b ⟨text, htext, -⟩
    rw [h] at htext
    cases htext
  have hvalue : ∀ key, key.value (asking asked).resolve =
      (asked key).getD (key.value defaultOptions) := by
    intro key
    rw [← overlay_nothing (asking asked), value_asked]
    cases key <;> rfl
  refine ⟨?_, fun key b _ hfile => absurd hfile (hgives key b), ?_⟩
  · intro key b hasked
    rw [hvalue, hasked, Option.getD_some]
  · intro key hasked _
    rw [hvalue, hasked, Option.getD_none]

/-- What becomes of a request depends on the file: it is missing and nobody named it, it cannot be
read, its text is not accepted, or its settings are taken. -/
theorem load_cases (disk : Disk) (directory file : Option String) :
    let path := requestedPath disk directory file
    (∃ e, disk.readText path = .error e ∧ file = none ∧ e.isMissingFile = true ∧
      ∀ asked, load disk (requesting directory file asked) = .ok ⟨(asking asked).resolve, none⟩) ∨
    (Unreadable disk path file ∧ ∃ message, ∀ asked,
      load disk (requesting directory file asked) = .error (.view (.config message []))) ∨
    (Rejected disk path ∧ ∃ wrong, ∀ asked,
      load disk (requesting directory file asked) = .error (rejected path.text wrong)) ∨
    ∃ text s, disk.readText path = .ok text ∧ read text path.text = .ok s ∧ ∀ asked,
      load disk (requesting directory file asked) =
        .ok ⟨((asking asked).overlay s).resolve, some path⟩ := by
  intro path
  cases htext : disk.readText path with
  | error e =>
    by_cases hmissing : file = none ∧ e.isMissingFile = true
    · obtain ⟨rfl, hmissing⟩ := hmissing
      exact .inl ⟨e, rfl, rfl, hmissing, fun asked => load_of_missing htext hmissing⟩
    · exact .inr (.inl ⟨⟨e, htext, hmissing⟩, _, fun asked => load_of_unreadable htext hmissing⟩)
  | ok text =>
    have hload : ∀ asked, load disk (requesting directory file asked) =
        (read text path.text).map fun s => ⟨((asking asked).overlay s).resolve, some path⟩ :=
      fun asked => load_of_text htext
    cases hread : read text path.text with
    | error e =>
      obtain ⟨wrong, rfl⟩ := error_of_read hread
      refine .inr (.inr (.inl ⟨⟨text, _, htext, hread⟩, wrong, fun asked => ?_⟩))
      rw [hload, hread]
      rfl
    | ok s =>
      refine .inr (.inr (.inr ⟨text, s, rfl, hread, fun asked => ?_⟩))
      rw [hload, hread]
      rfl

/-- A default file that is missing is no reason to fail. -/
theorem acceptable_of_missing {path : Path} {e : Failure} (h : disk.readText path = .error e)
    (hmissing : e.isMissingFile = true) : ¬(Unreadable disk path none ∨ Rejected disk path) := by
  rintro (⟨e', herror, hnot⟩ | ⟨text, e', hok, -⟩)
  · rw [h] at herror
    cases herror
    exact hnot ⟨rfl, hmissing⟩
  · rw [h] at hok
    cases hok

/-- A file that gives settings is neither unreadable nor rejected. -/
theorem acceptable_of_read {path : Path} {text : String} {s : Settings}
    (htext : disk.readText path = .ok text) (hread : read text path.text = .ok s) :
    ¬(Unreadable disk path file ∨ Rejected disk path) := by
  rintro (⟨e, herror, -⟩ | ⟨text', e, hok, hrejected⟩)
  · rw [htext] at herror
    cases herror
  · rw [htext] at hok
    cases hok
    cases hread.symm.trans hrejected

/-- With an empty file there is only what was asked. -/
theorem load_of_empty (htext : disk.readText (requestedPath disk directory file) = .ok "") :
    ∃ loaded, load disk (requesting directory file asked) = .ok loaded ∧
      loaded.options = (asking asked).resolve := by
  refine ⟨_, by rw [load_of_text htext, read_empty]; rfl, ?_⟩
  exact congrArg Settings.resolve (overlay_nothing _)

/-- Loading fails for the sake of the file, and then in the same way whatever was asked. Otherwise
each option comes from the uppermost layer that gives it, the file is named as the source exactly if
it has been read, and a file that is missing gives the same options as an empty one. -/
theorem load_layers (disk : Disk) (directory file : Option String)
    (asked : OptionKey → Option Bool) :
    let path := requestedPath disk directory file
    ((∃ e, load disk (requesting directory file asked) = .error e) ↔
      Unreadable disk path file ∨ Rejected disk path) ∧
    (∀ e, load disk (requesting directory file asked) = .error e →
      (∃ message wrong, e = .view (.config message wrong)) ∧
        ∀ other, load disk (requesting directory file other) = .error e) ∧
    ∀ loaded, load disk (requesting directory file asked) = .ok loaded →
      Layered disk path asked loaded.options ∧
      (loaded.source = some path ↔ ∃ text, disk.readText path = .ok text) ∧
      (∀ p, loaded.source = some p → p = path) ∧
      (loaded.source = none → file = none ∧ ∀ disk' : Disk,
        disk'.readText (requestedPath disk' directory file) = .ok "" →
        ∃ loaded', load disk' (requesting directory file asked) = .ok loaded' ∧
          loaded'.options = loaded.options) := by
  intro path
  rcases load_cases disk directory file with
    ⟨e, htext, rfl, hmissing, hload⟩ | ⟨hunreadable, message, hload⟩ |
      ⟨hrejected, wrong, hload⟩ | ⟨text, s, htext, hread, hload⟩
  · rw [hload]
    refine ⟨iff_of_false (by rintro ⟨e, ⟨⟩⟩) (acceptable_of_missing htext hmissing),
      by rintro e ⟨⟩, ?_⟩
    rintro loaded ⟨⟩
    refine ⟨layered_of_unread htext, iff_of_false (by rintro ⟨⟩) ?_, by rintro p ⟨⟩,
      fun _ => ⟨rfl, fun disk' hempty => load_of_empty hempty⟩⟩
    rintro ⟨text, htext'⟩
    rw [htext] at htext'
    cases htext'
  · rw [hload]
    refine ⟨iff_of_true ⟨_, rfl⟩ (.inl hunreadable), ?_, by rintro loaded ⟨⟩⟩
    rintro e ⟨⟩
    exact ⟨⟨message, [], rfl⟩, hload⟩
  · rw [hload]
    refine ⟨iff_of_true ⟨_, rfl⟩ (.inr hrejected), ?_, by rintro loaded ⟨⟩⟩
    rintro e ⟨⟩
    exact ⟨⟨_, wrong, rfl⟩, hload⟩
  · rw [hload]
    refine ⟨iff_of_false (by rintro ⟨e, ⟨⟩⟩) (acceptable_of_read htext hread),
      by rintro e ⟨⟩, ?_⟩
    rintro loaded ⟨⟩
    exact ⟨layered_of_read htext hread, iff_of_true rfl ⟨text, htext⟩,
      by rintro p ⟨⟩; rfl, by rintro ⟨⟩⟩

/-- A disk on which the default file has its options in a section. -/
def sectionDisk : Disk where
  workingDirectory := ⟨[]⟩
  entries := [(⟨[defaultFile]⟩, .file (Text.Utf8.encode
    "\x7b\"theme\": 1, \"parseTreeInspector\": \x7b\"enableNavigation\": true\x7d\x7d"))]

/-- What the file gives is joined by what was asked. -/
theorem sectionDisk_layers :
    ∃ loaded, load sectionDisk (requesting none none fun
        | .navigation => none
        | .highlight => some true) = .ok loaded ∧
      loaded.options = { navigation := true, highlight := true } ∧
      loaded.source = some ⟨[defaultFile]⟩ := by
  have hpath : requestedPath sectionDisk none none = ⟨[defaultFile]⟩ := by decide +kernel
  have htext : sectionDisk.readText ⟨[defaultFile]⟩ = .ok
      "\x7b\"theme\": 1, \"parseTreeInspector\": \x7b\"enableNavigation\": true\x7d\x7d" :=
    congrArg Except.ok (Text.Utf8.decode_encode _)
  have hread := readUnits_sectionText (Path.text ⟨[defaultFile]⟩)
  have hlayers := load_layers sectionDisk none none fun
    | .navigation => none
    | .highlight => some true
  rw [hpath] at hlayers
  obtain ⟨hfails, -, hloads⟩ := hlayers
  cases hload : load sectionDisk (requesting none none fun
      | .navigation => none
      | .highlight => some true) with
  | error e =>
    rcases hfails.1 ⟨e, hload⟩ with ⟨e', herror, -⟩ | ⟨text, e', hok, hrejected⟩
    · rw [htext] at herror
      cases herror
    · rw [htext] at hok
      cases hok
      rw [read] at hrejected
      cases hread.symm.trans hrejected
  | ok loaded =>
    obtain ⟨hlayered, hsource, -, -⟩ := hloads loaded hload
    refine ⟨loaded, rfl, ?_, hsource.2 ⟨_, htext⟩⟩
    have hnavigation : loaded.options.navigation = true :=
      hlayered.fromFile .navigation true rfl
        ⟨_, htext, (setting_of_read hread .navigation true).1 rfl⟩
    have hhighlight : loaded.options.highlight = true := hlayered.fromRequest .highlight true rfl
    obtain ⟨⟨navigation, highlight⟩, source⟩ := loaded
    simp only at hnavigation hhighlight
    rw [hnavigation, hhighlight]

end

end Config

end TreeInspector
