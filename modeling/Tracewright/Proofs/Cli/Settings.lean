/-
  Tracewright.Proofs.Cli.Settings

  The settings of a call of the command that generates programs: those of its
  file over the usual ones, its options over both, and the check.

    * `GenerateArguments.options`
                          — every setting that has an option.
    * `HoldsLayer`        — what the file of settings of a call says.
    * `callSettings`, `callMode`
                          — the settings of a call, and the mode they describe.
    * `callMode_settled`  — when nothing but a fault in the settings can come
                            of them.
    * `callMode_escaping` — other failures, of other settings.
-/
import Tracewright.Cli.Generate
import Tracewright.Proofs.Settings.Load
import Tracewright.Proofs.Settings.Mode

namespace Tracewright

namespace Settings

/-- A section of settings of one's own is always there. -/
theorem IsOwn.isOpen_iff {base : Memory} {s : Settings} {top : Text} (h : IsOwn base s)
    (htop : top ∈ sections) :
    IsOpen s.memory (.ref s.root) top ↔ (s.openSection? top).isSome = true := by
  obtain ⟨root, hroot, hstands⟩ := h.stands
  obtain ⟨i, hi, -⟩ := hstands top htop
  rw [h.openSection?_eq hroot, IsOpen, h.root_eq, Memory.find?_cons hroot, hi]
  simp only [Memory.find?, Option.bind_some, Option.mem_def, Option.some.injEq, forall_eq']

end Settings

namespace Cli

open Run (FailsWith failsWith_pure failsWith_bind)
open Settings (HasLaid HasPutAll IsOpen IsOption IsOwn sectionOf sections given path)

/-! ## Options -/

namespace GenerateArguments

/-- The settings that have options, each with the value of its option if it is given. -/
def options (a : GenerateArguments) : List (Text × Option Scalar) :=
  [("generator.expression", a.expression.map .text),
    ("generator.pid", a.pid.map .int),
    ("generator.full_feature", a.fullFeature.map .bool),
    ("generator.string_read", a.policy.map .text),
    ("generator.string_packets", a.packets.map .int),
    ("catalog.file", a.catalog.map .text),
    ("templates.dir", a.directory.map .text),
    ("output.file", a.output.map .text),
    ("output.debug_marks", if a.debug then some (.bool true) else none)]

/-- The names of the settings that have options. -/
def keys : List Text :=
  ["generator.expression", "generator.pid", "generator.full_feature", "generator.string_read",
    "generator.string_packets", "catalog.file", "templates.dir", "output.file",
    "output.debug_marks"]

theorem overrides_eq (a : GenerateArguments) : a.overrides = given a.options := rfl

theorem map_options (a : GenerateArguments) : a.options.map Prod.fst = keys := rfl

theorem mem_keys_of_mem_options {a : GenerateArguments} {o : Text × Option Scalar}
    (ho : o ∈ a.options) : o.1 ∈ keys := by
  rw [← a.map_options]
  exact List.mem_map_of_mem ho

/-- The options of a call stand in sections. -/
theorem isOption_of_mem_keys {key : Text} (h : key ∈ keys) : IsOption key := by
  simp only [keys, List.mem_cons, List.not_mem_nil, or_false] at h
  rcases h with rfl | rfl | rfl | rfl | rfl | rfl | rfl | rfl | rfl
  all_goals exact ⟨_, by decide, _, rfl⟩

theorem isOption_of_mem_options {a : GenerateArguments} {o : Text × Option Scalar}
    (ho : o ∈ a.options) : IsOption o.1 :=
  isOption_of_mem_keys (mem_keys_of_mem_options ho)

theorem nodup_options (a : GenerateArguments) : (a.options.map fun o => path o.1).Nodup := by
  have hkeys : (keys.map path).Nodup := by decide
  rw [← a.map_options, List.map_map] at hkeys
  exact hkeys

theorem sectionOf_mem_sections {a : GenerateArguments} {e : Text × Item} (he : e ∈ a.overrides) :
    sectionOf e.1 ∈ sections := by
  rw [overrides_eq, given, List.mem_filterMap] at he
  obtain ⟨o, ho, hoption⟩ := he
  obtain ⟨v, -, rfl⟩ := Option.map_eq_some_iff.1 hoption
  obtain ⟨top, htop, name, hpath⟩ := isOption_of_mem_options ho
  rw [sectionOf, hpath]
  exact htop

end GenerateArguments

variable {platform : Platform} {a : GenerateArguments} {files : Files} {d : Document}
  {s : Settings}

/-! ## Files -/

/-- What the file of settings of a call says: nothing if there is none, or if it is empty, and
    otherwise what its mapping holds. -/
inductive HoldsLayer (platform : Platform) (a : GenerateArguments) (files : Files) :
    Document → Prop where
  | unnamed : a.config = none ∨ a.config = some [] →
    HoldsLayer platform a files (.ofScalar .null)
  | missing {file : Text} : a.config = some file → file ≠ [] →
    files.probe (Path.ofText file) = .ok none → HoldsLayer platform a files (.ofScalar .null)
  | empty {file : Text} {d : Document} : a.config = some file → file ≠ [] →
    platform.load files (Path.ofText file) = .ok d → d.root = .scalar .null →
    HoldsLayer platform a files (.ofScalar .null)
  | mapping {file : Text} {d : Document} : a.config = some file → file ≠ [] →
    platform.load files (Path.ofText file) = .ok d → d.entries?.isSome = true →
    HoldsLayer platform a files d

theorem fileSettings_of_unnamed (h : a.config = none ∨ a.config = some []) :
    fileSettings platform a files = pure (Settings.usual platform.depths) := by
  rw [fileSettings]
  rcases h with h | h <;> rw [h]

theorem fileSettings_of_some {file : Text} (hconfig : a.config = some file) (hfile : file ≠ []) :
    fileSettings platform a files =
      (Settings.load platform files file).leaves (Settings.usual platform.depths) := by
  rw [fileSettings, hconfig]
  cases file with
  | nil => exact absurd rfl hfile
  | cons c rest => rfl

/-- The file of a call is laid over the usual settings. -/
theorem exists_fileSettings (h : HoldsLayer platform a files d) :
    ∃ s, (fileSettings platform a files).result = .ok s ∧ HasLaid platform.depths d s := by
  cases h with
  | unnamed hconfig =>
    rw [fileSettings_of_unnamed hconfig]
    exact ⟨_, rfl, Settings.hasLaid_usual _⟩
  | missing hconfig hfile hprobe =>
    rw [fileSettings_of_some hconfig hfile, Action.leaves, Settings.load, hprobe]
    exact ⟨_, rfl, Settings.hasLaid_usual _⟩
  | empty hconfig hfile hload hroot =>
    rw [fileSettings_of_some hconfig hfile, Action.leaves, Settings.load_of_read _ hload,
      Settings.overlay_of_null _ hroot]
    exact ⟨_, rfl, Settings.hasLaid_usual _⟩
  | mapping hconfig hfile hload hentries =>
    obtain ⟨s, hlay, hlaid⟩ := Settings.exists_hasLaid platform.depths hentries
    rw [fileSettings_of_some hconfig hfile, Action.leaves, Settings.load_of_read _ hload]
    obtain ⟨hresult, hstate⟩ := Settings.overlay_of_mapping _ hentries hlay
    rw [hresult, hstate]
    exact ⟨s, rfl, hlaid⟩

/-- There is nothing else that a file of settings can say. -/
theorem exists_holdsLayer (h : (fileSettings platform a files).result = .ok s) :
    ∃ d, HoldsLayer platform a files d := by
  by_cases hconfig : a.config = none ∨ a.config = some []
  · exact ⟨_, .unnamed hconfig⟩
  obtain ⟨file, hfile⟩ := Option.ne_none_iff_exists'.1 fun h => hconfig (.inl h)
  have hne : file ≠ [] := fun h => hconfig (.inr (h ▸ hfile))
  rw [fileSettings_of_some hfile hne, Action.leaves] at h
  cases hload : platform.load files (Path.ofText file) with
  | ok d =>
    by_cases hroot : d.root = .scalar .null
    · exact ⟨_, .empty hfile hne hload hroot⟩
    · by_cases hentries : d.entries?.isSome = true
      · exact ⟨d, .mapping hfile hne hload hentries⟩
      · rw [Settings.load_of_read _ hload, Settings.overlay, if_neg hroot, if_neg hentries] at h
        cases h
  | error fault =>
    -- only a file that is not there does not need a document
    rw [Settings.load] at h
    cases hprobe : files.probe (Path.ofText file) with
    | error fault => rw [hprobe] at h; cases h
    | ok there =>
      cases there with
      | none => exact ⟨_, .missing hfile hne hprobe⟩
      | some n =>
        obtain ⟨e, he⟩ := Settings.exists_document_error hload
        simp only [hprobe] at h
        rw [Action.bind_of_error (x := liftM (Settings.document platform files file)) he] at h
        cases h

theorem exists_hasLaid (h : (fileSettings platform a files).result = .ok s) :
    ∃ d, HasLaid platform.depths d s := by
  obtain ⟨d, hd⟩ := exists_holdsLayer h
  obtain ⟨s', hs', hlaid⟩ := exists_fileSettings hd
  obtain rfl := Except.ok.inj (h.symm.trans hs')
  exact ⟨d, hlaid⟩

/-! ## The settings of a call -/

/-- The settings of a call. -/
def callSettings (platform : Platform) (a : GenerateArguments) (files : Files) : Run Settings :=
  fileSettings platform a files >>= fun s => (Settings.assignAll a.overrides).leaves s

/-- The settings of a call, checked. -/
def callMode (platform : Platform) (a : GenerateArguments) (files : Files) : Run Mode :=
  callSettings platform a files >>= Settings.mode

/-- The file of settings that a call names, if there is one, fails with a fault in the
    settings. -/
def TellsFile (platform : Platform) (a : GenerateArguments) (files : Files) : Prop :=
  ∀ file, a.config = some file → file ≠ [] →
    ∃ there, files.probe (Path.ofText file) = .ok there ∧
      (there.isSome → ∀ fault, platform.load files (Path.ofText file) = .error fault →
        Settings.IsReportedFault fault)

theorem failsWith_fileSettings_iff :
    (fileSettings platform a files).FailsWith Failure.IsConfig ↔ TellsFile platform a files := by
  rw [TellsFile]
  by_cases hconfig : a.config = none ∨ a.config = some []
  · rw [fileSettings_of_unnamed hconfig]
    refine ⟨fun _ file hfile hne => ?_, fun _ => failsWith_pure _⟩
    rcases hconfig with hconfig | hconfig
    · rw [hconfig] at hfile
      cases hfile
    · rw [hconfig] at hfile
      exact absurd (Option.some.inj hfile).symm hne
  · obtain ⟨file, hfile⟩ := Option.ne_none_iff_exists'.1 fun h => hconfig (.inl h)
    have hne : file ≠ [] := fun h => hconfig (.inr (h ▸ hfile))
    rw [fileSettings_of_some hfile hne, Action.failsWith_leaves_iff, Settings.failsWith_load_iff]
    constructor
    · intro h file' hfile' _
      obtain rfl := Option.some.inj (hfile.symm.trans hfile')
      exact h
    · exact fun h => h file hfile hne

/-- Options are put into open sections, and nowhere else. -/
theorem failsWith_assignAll_iff {base : Memory} (h : IsOwn base s) :
    ((Settings.assignAll a.overrides).leaves s).FailsWith Failure.IsConfig ↔
      ∀ e ∈ a.overrides, IsOpen s.memory (.ref s.root) (sectionOf e.1) := by
  have hopen : (∀ e ∈ a.overrides, IsOpen s.memory (.ref s.root) (sectionOf e.1)) ↔
      ∀ e ∈ a.overrides, (s.openSection? (sectionOf e.1)).isSome = true :=
    forall₂_congr fun e he => h.isOpen_iff (GenerateArguments.sectionOf_mem_sections he)
  rw [hopen, Action.failsWith_leaves_iff, a.overrides_eq]
  rcases h.assignAll a.options (fun _ => GenerateArguments.isOption_of_mem_options)
    a.nodup_options with ⟨hall, s', hrun, -⟩ | ⟨⟨e, he, hnone⟩, s', hrun⟩
  · rw [hrun]
    exact ⟨fun _ => hall, fun _ => failsWith_pure ()⟩
  · rw [hrun]
    refine ⟨fun hfails => absurd hfails (Run.not_failsWith_fail nofun), fun hall => ?_⟩
    have hsome := hall e he
    rw [hnone] at hsome
    cases hsome

/-- What is wrong with the settings of a call is a fault in the settings, unless the path of the
    file is too long or the reader runs into something that is not reported, a section is no
    mapping, or there is a number that is infinite, or something that cannot be shown.  What they
    describe otherwise is a mode. -/
theorem callMode_settled (platform : Platform) (a : GenerateArguments) (files : Files) :
    ((callMode platform a files).FailsWith Failure.IsConfig ↔
      TellsFile platform a files ∧ ∀ s, (fileSettings platform a files).result = .ok s →
        (∀ e ∈ a.overrides, IsOpen s.memory (.ref s.root) (sectionOf e.1)) ∧
        ∀ s', ((Settings.assignAll a.overrides).leaves s).result = .ok s' → s'.IsTellable) ∧
    ∀ m, (callMode platform a files).result = .ok m →
      ∃ s, (callSettings platform a files).result = .ok s ∧ s.Describes m := by
  constructor
  · have hcall : callMode platform a files = fileSettings platform a files >>= fun s =>
        (Settings.assignAll a.overrides).leaves s >>= Settings.mode := by
      rw [callMode, callSettings, bind_assoc]
    rw [hcall, failsWith_bind, failsWith_fileSettings_iff]
    refine and_congr_right fun _ => forall_congr' fun s => imp_congr_right fun hs => ?_
    obtain ⟨d, hlaid⟩ := exists_hasLaid hs
    rw [failsWith_bind, failsWith_assignAll_iff hlaid.own]
    refine and_congr_right fun _ => forall_congr' fun s' => ?_
    rw [Settings.failsWith_mode_iff]
  · intro m h
    obtain ⟨s, hs, hmode⟩ := Run.result_bind_eq_ok h
    exact ⟨s, hs, Settings.describes_of_mode hmode⟩

/-- A directory with one file of settings. -/
def settingsFile (bytes : List UInt8) : Files where
  nodes := [(["config.yaml"], .file bytes)]
  home := []

/-- A number of packets without an end, bytes that are no text, a date that there is not, and a
    process that is put where there is no section: none of these is said to be a fault in the
    settings. -/
theorem callMode_escaping :
    (callMode Yaml.platform { config := some "config.yaml" } (settingsFile (Text.Utf8.encode
        "generator:\n  string_packets: .inf\n"))).result matches .error .tooLarge ∧
      (callMode Yaml.platform { config := some "config.yaml" } (settingsFile [0xff])).result
        matches .error .notUtf8 ∧
      (callMode Yaml.platform { config := some "config.yaml" } (settingsFile (Text.Utf8.encode
        "x: 2024-02-30\n"))).result matches .error (.value _) ∧
      (callMode Yaml.platform { config := some "config.yaml", pid := some 7 } (settingsFile
        (Text.Utf8.encode "generator: 5\n"))).result matches .error .wrongKind := by
  decide +kernel

end Cli

end Tracewright
