/-
  Tracewright.Proofs.Cli.Precedence

  Which value each setting of a call has: that of its option, or else that of
  the file of settings, or else the usual one.  Nothing else counts, neither
  another option nor another entry of the file.

    * `layered`          — the value that counts.
    * `result_callSettings`
                         — the settings of a call, one by one.
    * `uses_congr`       — the command uses these settings and no others.
    * `settings_layered` — all of this about a call in a session.
-/
import Tracewright.Proofs.Cli.Generate

namespace Tracewright.Cli

open Settings (HasPutAll IsOpen IsOption path sectionOf sections taken)

variable {platform : Platform} {a : GenerateArguments} {files : Files} {d : Document}

/-! ## Values -/

/-- The value of a setting: that of its option, or else that of the document, null included, or
    else the usual one. -/
def layered (platform : Platform) (d : Document) (key : Text) (option : Option Scalar)
    (usual : Scalar) : Value :=
  match option with
  | some v => .scalar v
  | none =>
    match (d.memory platform.depths).find? d.root (path key) with
    | some i => (d.memory platform.depths).see i
    | none => .scalar usual

/-- Each of the settings with options has a usual value, which has no parts. -/
theorem exists_usual (depths : Depths) {key : Text} (h : key ∈ GenerateArguments.keys) :
    ∃ v : Scalar, (Settings.usual depths).item? key = some (.scalar v) := by
  simp only [GenerateArguments.keys, List.mem_cons, List.not_mem_nil, or_false] at h
  rcases h with rfl | rfl | rfl | rfl | rfl | rfl | rfl | rfl | rfl
  all_goals exact ⟨_, rfl⟩

/-- What is found in a document does not lead out of it. -/
theorem isBelow_of_find? {i : Item} {depths : Depths} {names : List Text}
    (h : (d.memory depths).find? d.root names = some i) : i.IsBelow d.objects.length := by
  have hmoved : ∀ r < d.objects.length, (taken depths d).object? (r + 10) =
      d.objects[r]?.map (Object.shift 10) := fun r _ => Settings.object?_taken depths d r
  exact (Memory.find?_shift depths hmoved d.root_isBelow names).2 i h

/-! ## Settings -/

/-- With sections that are mappings the options of a call can be put, and each setting has the
    value that counts. -/
theorem result_callSettings (h : HoldsLayer platform a files d)
    (hsections : ∀ top ∈ sections, IsOpen (d.memory platform.depths) d.root top) :
    ∃ s, (callSettings platform a files).result = .ok s ∧
      Settings.IsOwn (taken platform.depths d) s ∧
      ∀ o ∈ a.options, ∃ v : Scalar,
        (Settings.usual platform.depths).item? o.1 = some (.scalar v) ∧
        ∀ default, s.get o.1 default = layered platform d o.1 o.2 v := by
  obtain ⟨s₁, hs₁, hlaid⟩ := exists_fileSettings h
  have hopen : ∀ e ∈ a.overrides, (s₁.openSection? (sectionOf e.1)).isSome = true := fun e he =>
    have htop := GenerateArguments.sectionOf_mem_sections he
    (hlaid.isSome_openSection?_iff _ htop).2 (hsections _ htop)
  rcases hlaid.own.assignAll a.options
    (fun _ => GenerateArguments.isOption_of_mem_options) a.nodup_options with
    ⟨-, s, hrun, hput⟩ | ⟨⟨e, he, hnone⟩, -⟩
  · refine ⟨s, ?_, hput.own, fun o ho => ?_⟩
    · rw [callSettings, Run.result_bind_of_ok hs₁, Action.leaves, a.overrides_eq, hrun]
      rfl
    · obtain ⟨v, hv⟩ := exists_usual platform.depths (GenerateArguments.mem_keys_of_mem_options ho)
      have hoption := GenerateArguments.isOption_of_mem_options ho
      obtain ⟨top, htop, name, hpath⟩ := hoption
      have hsection : IsOpen (d.memory platform.depths) d.root (sectionOf o.1) := by
        rw [sectionOf, hpath]
        exact hsections top htop
      refine ⟨v, hv, fun default => ?_⟩
      unfold layered
      rw [Settings.get, hput.item?_eq o ho, hlaid.item?_eq o.1 ⟨top, htop, name, hpath⟩ hsection,
        hv]
      -- the option if it is given, else what stands in the file, else what was there
      cases o.2 with
      | some w => rfl
      | none =>
        cases hfind : (d.memory platform.depths).find? d.root (path o.1) with
        | none => rfl
        | some i => exact hput.own.see_shift (isBelow_of_find? hfind)
  · have hsome := hopen e he
    rw [hnone] at hsome
    cases hsome

/-! ## What is used -/

/-- The command uses the settings that have options, and no others. -/
theorem uses_congr {s s' : Settings}
    (h : ∀ key ∈ GenerateArguments.keys, ∀ default, s'.get key default = s.get key default) :
    program platform s' = program platform s ∧ ∀ text, deliver s' text = deliver s text := by
  have hexpression := h "generator.expression" (by decide)
  have hpid := h "generator.pid" (by decide)
  have hfullFeature := h "generator.full_feature" (by decide)
  have hpolicy := h "generator.string_read" (by decide)
  have hpackets := h "generator.string_packets" (by decide)
  have hcatalog := h "catalog.file" (by decide)
  have hdirectory := h "templates.dir" (by decide)
  have hfile := h "output.file" (by decide)
  have hmarks := h "output.debug_marks" (by decide)
  have hmode : s'.mode = s.mode := by
    rw [Settings.mode, Settings.mode]
    simp only [hexpression, hpid, hfullFeature, hpolicy, hpackets]
  have hcatalog : s'.catalog platform = s.catalog platform := by
    funext files
    rw [Settings.catalog, Settings.catalog, hcatalog]
  have hdirectory : s'.directory = s.directory := by
    rw [Settings.directory, Settings.directory, hdirectory]
  refine ⟨?_, fun text => ?_⟩
  · rw [program, program, hmode, hcatalog, hdirectory]
  · rw [deliver, deliver, hfile, hmarks]

/-- The settings that a call comes to, one by one: the value of an option that is given, whatever
    it is; or else the value of the file, null included; or else the usual value.  The command
    goes on with these settings and uses no others.  The usual settings themselves are still
    there, and settings that are made of them afterwards hold what the first ones held. -/
theorem settings_layered (platform : Platform) (a : GenerateArguments) (here : Session)
    {d : Document} (h : HoldsLayer platform a here.files d)
    (hsections : ∀ top ∈ sections, IsOpen (d.memory platform.depths) d.root top) :
    ∃ s there, exec (settings platform a) here = (.ok s, there) ∧
      (∀ o ∈ a.options, ∃ v : Scalar,
        (Settings.usual platform.depths).item? o.1 = some (.scalar v) ∧
        ∀ default, s.get o.1 default = layered platform d o.1 o.2 v) ∧
      exec (generateProgram platform a) here =
        exec (reported logFailure (program platform s >>= deliver s)) there ∧
      (∀ s' : Settings,
        (∀ key ∈ a.options.map Prod.fst, ∀ default, s'.get key default = s.get key default) →
          program platform s' = program platform s ∧ ∀ text, deliver s' text = deliver s text) ∧
      s.memory.objects.take 5 = Settings.usualObjects ∧
      ∀ key default, (Settings.fresh s.memory).get key default =
        (Settings.usual platform.depths).get key default := by
  obtain ⟨s, hs, hown, hvalues⟩ := result_callSettings h hsections
  obtain ⟨there, hexec⟩ := settings_of_ok hs
  refine ⟨s, there, hexec, hvalues, ?_, fun s' hs' => uses_congr hs', hown.take_eq,
    fun key default => ?_⟩
  · rw [generateProgram, exec_bind_of_ok hexec]
  · have hdepths : s.memory.depths = platform.depths := hown.depths_eq
    rw [Settings.get_fresh hown.take_eq, hdepths]

/-- A session with a file of settings, in which one mapping is merged into another. -/
def layeredSession : Session where
  host := { own := 7 }
  files := settingsFile (Text.Utf8.encode
    "spare: &x \x7bpid: 12\x7d\ngenerator:\n  <<: *x\n  expression: null\n")

/-- The file says what the process is, and null for the expression; its other entry is none of
    the sections. -/
theorem load_layeredSession :
    ∃ d, Yaml.platform.load layeredSession.files (Path.ofText "config.yaml") = .ok d ∧
      d.entries?.isSome = true ∧
      (∀ top ∈ sections, IsOpen (d.memory Yaml.platform.depths) d.root top) ∧
      (d.memory Yaml.platform.depths).find? d.root (path "generator.pid") =
        some (.scalar (.int 12)) ∧
      (d.memory Yaml.platform.depths).find? d.root (path "generator.expression") =
        some (.scalar .null) ∧
      (d.memory Yaml.platform.depths).find? d.root (path "generator.string_read") = none := by
  have hdocument :
      ((Yaml.platform.load layeredSession.files (Path.ofText "config.yaml")).toOption.any fun d =>
        let m := d.memory Yaml.platform.depths
        d.entries?.isSome && decide (∀ top ∈ sections, IsOpen m d.root top) &&
          decide (m.find? d.root (path "generator.pid") = some (.scalar (.int 12))) &&
          decide (m.find? d.root (path "generator.expression") = some (.scalar .null)) &&
          decide (m.find? d.root (path "generator.string_read") = none)) = true := by
    decide +kernel
  obtain ⟨d, hd, hparts⟩ := (Option.any_eq_true _ _).1 hdocument
  simp only [Bool.and_eq_true, decide_eq_true_eq] at hparts
  obtain ⟨⟨⟨⟨hentries, hsections⟩, hpid⟩, hexpression⟩, hpolicy⟩ := hparts
  exact ⟨d, eq_ok_of_toOption hd, hentries, hsections, hpid, hexpression, hpolicy⟩

/-- Options that count as given although they are nought or empty, over a file that says null and
    one thing by way of another. -/
theorem settings_layered_over_null :
    ∃ s there,
      exec (settings Yaml.platform
          { config := some "config.yaml", packets := some 0, output := some [] }) layeredSession =
        (.ok s, there) ∧
      s.get "generator.string_packets" .null = .int 0 ∧ s.get "output.file" .null = .text [] ∧
      s.get "generator.pid" .null = .int 12 ∧
      s.get "generator.expression" (.text "all") = .null ∧
      s.get "generator.string_read" .null = .text "fixed" ∧
      (Settings.fresh s.memory).get "generator.string_packets" .null = .int 2 := by
  let a : GenerateArguments :=
    { config := some "config.yaml", packets := some 0, output := some [] }
  obtain ⟨d, hload, hentries, hsections, hpid, hexpression, hpolicy⟩ := load_layeredSession
  have hlayer : HoldsLayer Yaml.platform a layeredSession.files d :=
    .mapping rfl (List.cons_ne_nil _ _) hload hentries
  obtain ⟨s, there, hexec, hvalues, -, -, -, hfresh⟩ :=
    settings_layered Yaml.platform a layeredSession hlayer hsections
  refine ⟨s, there, hexec, ?_, ?_, ?_, ?_, ?_, (hfresh _ _).trans rfl⟩
  · obtain ⟨v, -, hget⟩ := hvalues _ (List.mem_of_getElem? (i := 4) rfl)
    exact hget _
  · obtain ⟨v, -, hget⟩ := hvalues _ (List.mem_of_getElem? (i := 7) rfl)
    exact hget _
  · obtain ⟨v, -, hget⟩ := hvalues _ (List.mem_of_getElem? (i := 1) rfl)
    refine (hget _).trans ?_
    simp only [layered, a, hpid, Option.map_none]
    rfl
  · obtain ⟨v, -, hget⟩ := hvalues _ (List.mem_of_getElem? (i := 0) rfl)
    refine (hget _).trans ?_
    simp only [layered, a, hexpression, Option.map_none]
    rfl
  · obtain ⟨v, husual, hget⟩ := hvalues _ (List.mem_of_getElem? (i := 3) rfl)
    cases husual
    refine (hget _).trans ?_
    simp only [layered, a, hpolicy, Option.map_none]

end Tracewright.Cli
