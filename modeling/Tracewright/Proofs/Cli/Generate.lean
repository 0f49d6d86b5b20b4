/-
  Tracewright.Proofs.Cli.Generate

  The command that generates programs, in a session.  Until the program is
  there the session lets in records only; then the program is put in one
  place, as a whole, or the command fails.

    * `Session.Reads`, `Session.Generates`
                           — the settings that a session comes to, and the
                             text that is generated for them.
    * `Session.Generates.of_apart`
                           — the text that is generated from the files as
                             they are, if the log file is none of them.
    * `Session.Delivers`   — where a program has been put.
    * `Sparing`            — steps that change no file but the log file if
                             they fail.
    * `sparing_generateProgram`, `generateProgram_eq_ok`
                           — how the command fails, and what it has done if
                             it does not.
-/
import Tracewright.Proofs.Cli.Session
import Tracewright.Proofs.Cli.Settings
import Tracewright.Proofs.Output.Delivery

namespace Tracewright

variable {platform : Platform} {at? : Option Location} {f g : Files}

/-! ## What is read of files -/

theorem Platform.load_eq {path : Path} (h : g.read path = f.read path) :
    platform.load g path = platform.load f path := by
  rw [load, load, h]

theorem Listing.load_eq {file : Text} (h : g.read (Path.ofText file) = f.read (Path.ofText file)) :
    Listing.load platform g file = Listing.load platform f file := by
  rw [Listing.load, Listing.load, Listing.document, Listing.document, Platform.load_eq h]

theorem Store.loadVerbatim_congr {directory : Path} {name : Text}
    (h : g.read (directory.join (Path.ofText name)) = f.read (directory.join (Path.ofText name))) :
    Store.loadVerbatim { directory, files := g } name =
      Store.loadVerbatim { directory, files := f } name := by
  rw [Store.loadVerbatim, Store.loadVerbatim]
  simp only [Store.path, h]

namespace Settings

variable {s : Settings}

/-- The file that a program is written to, if settings name one. -/
def outputFile? (s : Settings) : Option Text :=
  match s.get "output.file" .null with
  | .text [] => none
  | .text file => some file
  | _ => none

/-- A program on the console stands between marks. -/
def marks (s : Settings) : Bool := (s.get "output.debug_marks" .null).isTrue

theorem load_eq {file : Text} (h : Files.SameBut at? f g)
    (hfile : f.Avoids at? (Path.ofText file)) : load platform g file = load platform f file := by
  funext s
  rw [load, load, document, document, h.probe_eq hfile, Platform.load_eq (h.read_eq hfile)]

theorem catalog_eq (h : Files.SameBut at? f g)
    (hs : ∀ file, s.get "catalog.file" .null = .text file → f.Avoids at? (Path.ofText file)) :
    s.catalog platform g = s.catalog platform f := by
  rw [catalog, catalog]
  split
  case h_1 => rfl
  case h_2 file _ hfile => exact Listing.load_eq (h.read_eq (hs file hfile))
  case h_3 => rfl

end Settings

namespace Cli

theorem callSettings_eq {a : GenerateArguments} (h : Files.SameBut at? f g)
    (ha : ∀ file, a.config = some file → f.Avoids at? (Path.ofText file)) :
    callSettings platform a g = callSettings platform a f := by
  have hfile : fileSettings platform a g = fileSettings platform a f := by
    rw [fileSettings, fileSettings]
    cases hconfig : a.config with
    | none => rfl
    | some file =>
      cases file with
      | nil => rfl
      | cons c rest =>
        simp only [Settings.load_eq h (ha _ hconfig)]
  rw [callSettings, callSettings, hfile]

/-! ## Settings in a session -/

theorem quiet_settings (platform : Platform) (a : GenerateArguments) :
    Quiet (settings platform a) :=
  (quiet_reported (fun _ => quiet_pure ()) (quiet_performOn _)).bind fun _ => quiet_perform _

/-- The settings of a call in a session are those of its files. -/
theorem settings_eq_ok {a : GenerateArguments} {here there : Session} {s : Settings}
    (h : exec (settings platform a) here = (.ok s, there)) :
    (callSettings platform a here.files).result = .ok s := by
  obtain ⟨base, _, hbase, hassign⟩ := exec_bind_eq_ok h
  have hbase : (fileSettings platform a here.files).result = .ok base :=
    exec_performOn_eq_ok (exec_reported_eq_ok hbase)
  rw [callSettings, Run.result_bind_of_ok hbase]
  exact exec_perform_eq_ok hassign

/-- Settings that come of its files are those of a call in a session. -/
theorem settings_of_ok {a : GenerateArguments} {here : Session} {s : Settings}
    (h : (callSettings platform a here.files).result = .ok s) :
    ∃ there, exec (settings platform a) here = (.ok s, there) := by
  obtain ⟨base, hbase, hassign⟩ := Run.result_bind_eq_ok h
  have hperform : exec (performOn (fileSettings platform a)) here =
      (.ok base, here.recorded (fileSettings platform a here.files).log) := by
    rw [exec_performOn, ending_of_ok hbase]
  have hreported := exec_reported_of_ok hperform fun _ => pure ()
  rw [settings, exec_bind_of_ok hreported, exec_perform, ending_of_ok hassign]
  exact ⟨_, rfl⟩

/-! ## Programs in a session -/

/-- The fragments of a directory, or the packaged ones, from files that stay as they are. -/
def fragmentsOf (directory : Option Path) (files : Files) : Source Run :=
  match directory with
  | none => Store.packaged.source
  | some directory => Store.source { directory, files }

/-- The text that is generated for settings from files that stay as they are. -/
def programOf (platform : Platform) (s : Settings) (host : Host) (files : Files) : Run Text := do
  let m ← s.mode
  let c ← s.catalog platform files
  let directory ← s.directory
  generate (fragmentsOf directory files) c m host.own

theorem match_lift {P : Session → Prop} (hP : ∀ s s' : Session, P s → s.Keeps s' → P s')
    (source : Source Run) : (watch P hP).Match source.lift source := by
  refine ⟨rfl, fun name _ => ⟨quiet_perform (source.loadVerbatim name), fun s _ => ?_⟩⟩
  exact congrArg Prod.fst (exec_perform (source.loadVerbatim name) s)

/-- Fragments are the same whenever they are taken, unless one of them is the file that
    changes. -/
theorem match_fragments (directory : Option Path) {P : Session → Prop}
    (hP : ∀ s s' : Session, P s → s.Keeps s' → P s')
    (hsame : ∀ s, P s → Files.SameBut at? f s.files)
    (hdirectory : ∀ path, directory = some path → ∀ name ∈ Index.usual.allFiles,
      f.Avoids at? (path.join (Path.ofText name))) :
    (watch P hP).Match (fragments directory) (fragmentsOf directory f) := by
  cases directory with
  | none => exact match_lift hP _
  | some path =>
    refine ⟨rfl, fun name hname => ?_⟩
    let load (files : Files) : Run Buffer := Store.loadVerbatim { directory := path, files } name
    show Quiet (performOn load) ∧ ∀ s, P s → (exec (performOn load) s).1 = ending (load f)
    refine ⟨quiet_performOn load, fun s hs => ?_⟩
    have hload : load s.files = load f :=
      Store.loadVerbatim_congr ((hsame s hs).read_eq (hdirectory path rfl name hname))
    rw [exec_performOn, hload]

theorem quiet_generate (directory : Option Path) (c : Catalog) (m : Mode) (own : Int) :
    Quiet (generate (fragments directory) c m own) := by
  -- sessions of no kind at all: only that the steps are quiet matters
  have hnone : ∀ s : Session, False → Files.SameBut none (Files.empty []) s.files :=
    fun _ h => h.elim
  have hmatch := match_fragments directory (fun _ _ h _ => h) hnone fun _ _ _ _ _ h => nomatch h
  exact (Simulation.rel_generate hmatch c m own).1

theorem quiet_program (platform : Platform) (s : Settings) : Quiet (program platform s) :=
  (quiet_perform _).bind fun _ => quiet_get_bind fun _ => (quiet_perform _).bind fun _ =>
    (quiet_performOn _).bind fun _ => (quiet_perform _).bind fun _ => quiet_generate _ _ _ _

namespace Session

variable {here now there : Session} {a : GenerateArguments} {s : Settings} {text : Text}

/-- A call comes to settings in a session. -/
def Reads (platform : Platform) (here : Session) (a : GenerateArguments) (s : Settings) : Prop :=
  ∃ now, here.Keeps now ∧ (callSettings platform a now.files).result = .ok s

/-- In a session a text is generated for settings: it is what comes of the mode, the catalog and
    the fragments that they name, each taken when its turn comes. -/
def Generates (platform : Platform) (here : Session) (s : Settings) (text : Text) : Prop :=
  ∃ m c directory now later there, s.mode.result = .ok m ∧
    here.Keeps now ∧ (s.catalog platform now.files).result = .ok c ∧
    s.directory.result = .ok directory ∧ here.Keeps later ∧
    exec (generate (fragments directory) c m here.host.own) later = (.ok text, there)

/-- The log file is none of the files that a call reads. -/
structure Apart (here : Session) (a : GenerateArguments) (s : Settings) : Prop where
  config : ∀ file, a.config = some file → here.files.Avoids here.logFile (Path.ofText file)
  catalog : ∀ file, s.get "catalog.file" .null = .text file →
    here.files.Avoids here.logFile (Path.ofText file)
  fragments : ∀ path, s.directory.result = .ok (some path) → ∀ name ∈ Index.usual.allFiles,
    here.files.Avoids here.logFile (path.join (Path.ofText name))

/-- Records that come in do not matter to the settings if the log file is not one of settings. -/
theorem Reads.of_apart (h : here.Reads platform a s) (hapart : here.Apart a s) :
    (callSettings platform a here.files).result = .ok s := by
  obtain ⟨now, hkeeps, hs⟩ := h
  rw [callSettings_eq hkeeps.files hapart.config] at hs
  exact hs

theorem Generates.of_keeps (h : here.Keeps now) (h' : now.Generates platform s text) :
    here.Generates platform s text := by
  obtain ⟨m, c, directory, at_, later, there, hm, hat, hc, hdirectory, hlater, hexec⟩ := h'
  rw [h.host] at hexec
  exact ⟨m, c, directory, at_, later, there, hm, h.trans hat, hc, hdirectory, h.trans hlater,
    hexec⟩

/-- Records that come in do not matter to the text if the log file is none that it is generated
    from. -/
theorem Generates.of_apart (h : here.Generates platform s text) (hapart : here.Apart a s) :
    (programOf platform s here.host here.files).result = .ok text := by
  obtain ⟨m, c, directory, now, later, there, hm, hnow, hc, hdirectory, hlater, hexec⟩ := h
  rw [s.catalog_eq hnow.files hapart.catalog] at hc
  have havoids : ∀ path, directory = some path → ∀ name ∈ Index.usual.allFiles,
      here.files.Avoids here.logFile (path.join (Path.ofText name)) := by
    rintro path rfl name hname
    exact hapart.fragments path hdirectory name hname
  have hmatch := match_fragments directory (fun _ _ h h' => h.trans h')
    (fun _ h => Keeps.files h) havoids
  have hend := (Simulation.rel_generate hmatch c m here.host.own).2 later hlater
  rw [hexec] at hend
  rw [programOf, Run.result_bind_of_ok hm, Run.result_bind_of_ok hc,
    Run.result_bind_of_ok hdirectory]
  exact ending_eq_ok hend.symm

end Session

/-- A program that has been generated in a session. -/
theorem program_eq_ok {here there : Session} {s : Settings} {text : Text}
    (h : exec (program platform s) here = (.ok text, there)) : here.Generates platform s text := by
  obtain ⟨m, s₁, hm, h⟩ := exec_bind_eq_ok h
  rw [exec_get_bind] at h
  obtain ⟨_, s₂, hannounce, h⟩ := exec_bind_eq_ok h
  obtain ⟨c, s₃, hc, h⟩ := exec_bind_eq_ok h
  obtain ⟨directory, s₄, hdirectory, h⟩ := exec_bind_eq_ok h
  -- up to the catalog, and up to the fragments, only records have come in
  have hfirst : here.Keeps s₁ := (quiet_perform _).keeps_of_exec hm
  have hnow : here.Keeps s₂ := hfirst.trans ((quiet_perform _).keeps_of_exec hannounce)
  have hlater : here.Keeps s₄ := (hnow.trans ((quiet_performOn _).keeps_of_exec hc)).trans
    ((quiet_perform _).keeps_of_exec hdirectory)
  rw [hfirst.host] at h
  exact ⟨m, c, directory, s₂, s₄, there, exec_perform_eq_ok hm, hnow, exec_performOn_eq_ok hc,
    exec_perform_eq_ok hdirectory, hlater, h⟩

/-! ## Delivery -/

theorem exec_print {α : Type} (x : Action Sink α) (s : Session) :
    exec (print x) s =
      (ending (x s.stdout).1, ({ s with stdout := (x s.stdout).2 }).recorded (x s.stdout).1.log) :=
  exec_perform (x s.stdout).1 { s with stdout := (x s.stdout).2 }

/-- A program has been put in the place of a file, as a whole. -/
structure Session.Exports (here : Session) (name text : Text) (there : Session) : Prop where
  stdout : there.stdout = here.stdout
  file : ∃ x, there.files.locate (Path.ofText name) = .ok x ∧
    there.files.get? x = some (.file (Text.Utf8.encode text)) ∧
    ∀ other, other ≠ x → here.logFile ≠ some other →
      Files.Untouched here.files there.files other

/-- A text has been put out, as a whole. -/
structure Session.Shows (here : Session) (text : Text) (there : Session) : Prop where
  stdout : there.stdout.text = here.stdout.text ++ text
  files : ∀ x, here.logFile ≠ some x → there.files.get? x = here.files.get? x

/-- A program has been put where settings ask for it: in a file, or else on the console. -/
structure Session.Delivers (here : Session) (s : Settings) (text : Text) (there : Session) :
    Prop where
  toFile : ∀ file, s.outputFile? = some file → here.Exports file text there
  toConsole : s.outputFile? = none → here.Shows (Console.shown text s.marks) there

/-- Between two sessions nothing has been put out, and no file but the log file has been made or
    changed; there may be new directories. -/
structure Session.Spares (here there : Session) : Prop where
  log : there.log = here.log
  stdout : there.stdout = here.stdout
  files : ∀ x, here.logFile ≠ some x → Files.Untouched here.files there.files x

namespace Session

variable {here now there : Session} {s : Settings} {text : Text}

theorem Keeps.spares (h : here.Keeps there) : here.Spares there :=
  ⟨h.log, h.stdout, fun x hx => .inl (h.files.get? x hx)⟩

theorem Spares.logFile_eq (h : here.Spares there) : there.logFile = here.logFile := by
  rw [logFile, logFile, h.log]

theorem Spares.trans (h : here.Spares now) (h' : now.Spares there) : here.Spares there where
  log := h'.log.trans h.log
  stdout := h'.stdout.trans h.stdout
  files x hx := (h.files x hx).trans (h'.files x (h.logFile_eq ▸ hx))

theorem Exports.of_keeps {name : Text} (h : here.Keeps now) (h' : now.Exports name text there) :
    here.Exports name text there := by
  obtain ⟨x, hlocate, hget, hothers⟩ := h'.file
  refine ⟨h'.stdout.trans h.stdout, x, hlocate, hget, fun other hother hlog => ?_⟩
  have hnow : Files.Untouched here.files now.files other := .inl (h.files.get? other hlog)
  exact hnow.trans (hothers other hother (h.logFile_eq ▸ hlog))

theorem Shows.of_keeps (h : here.Keeps now) (h' : now.Shows text there) :
    here.Shows text there where
  stdout := by rw [h'.stdout, h.stdout]
  files x hx := (h'.files x (h.logFile_eq ▸ hx)).trans (h.files.get? x hx)

/-- Records that have come in before do not matter to what is delivered. -/
theorem Delivers.of_keeps (h : here.Keeps now) (h' : now.Delivers s text there) :
    here.Delivers s text there where
  toFile file hfile := (h'.toFile file hfile).of_keeps h
  toConsole hconsole := (h'.toConsole hconsole).of_keeps h

end Session

/-- If a step fails on an open console, it has changed no file but the log file; it does not end
    in help. -/
structure Sparing {α : Type} (x : Command α) : Prop where
  spares : ∀ {here there : Session} {e : Exit}, here.stdout.room = none →
    exec x here = (.error e, there) → here.Spares there
  noHelp : NeverHelps x

section Sparing

variable {α β : Type} {x : Command α}

theorem Quiet.sparing (hx : Quiet x) : Sparing x :=
  ⟨fun _ h => (hx.keeps_of_exec h).spares, hx.noHelp⟩

/-- After quiet steps others may follow that spare files if they fail. -/
theorem Sparing.after {f : α → Command β} (hx : Quiet x) (hf : ∀ a, Sparing (f a)) :
    Sparing (x >>= f) := by
  refine ⟨fun {here there e} hopen h => ?_, hx.noHelp.bind fun a => (hf a).noHelp⟩
  rcases exec_bind_cases x f here with ⟨a, now, hexec, hbind⟩ | ⟨e', now, hexec, hbind⟩
  · have hkeeps : here.Keeps now := hx.keeps_of_exec hexec
    rw [hbind] at h
    exact hkeeps.spares.trans ((hf a).spares (hkeeps.stdout ▸ hopen) h)
  · rw [hbind] at h
    cases h
    exact (hx.keeps_of_exec hexec).spares

/-- Also a step that is reported on spares files. -/
theorem Sparing.reported {first : Failure → Command Unit} (hfirst : ∀ e, Quiet (first e))
    (hx : Sparing x) : Sparing (reported first x) := by
  have hreport : ∀ e, e ≠ .help → Quiet (report first e : Command α) := fun _ he =>
    quiet_report hfirst he
  refine ⟨fun {here there e} hopen h => ?_, hx.noHelp.tryCatch fun e he => (hreport e he).noHelp⟩
  rw [reported_eq] at h
  rcases exec_tryCatch_cases x (report first) here with
    ⟨a, now, hexec, htry⟩ | ⟨e', now, hexec, htry⟩
  · rw [htry] at h
    cases h
  · rw [htry] at h
    have hkeeps := (hreport e' (hx.noHelp.ne_help hexec)).keeps_of_exec h
    exact (hx.spares hopen hexec).trans hkeeps.spares

end Sparing

/-! ## Putting a program in its place -/

/-- A session with the files that a program has been written to.  A log file whose place the
    program has taken gets no more records. -/
def Session.exported (s : Session) (written : Run Path × Files) : Session :=
  { s with
    files := written.2
    log :=
      match written.1.result with
      | .ok path => s.log.map fun log =>
        if log.file.isSome && log.file == (written.2.locate path).toOption then
          { log with file := none }
        else log
      | .error _ => s.log }

/-- The log file is the one it was, unless the program has taken its place. -/
theorem Session.logFile_exported {here : Session} {files : Files} {path : Path} {text : Text}
    {x : Location} (hlocate : files.locate path = .ok x) :
    (here.exported (Export.written path text, files)).logFile =
      if here.logFile = some x then none else here.logFile := by
  show (here.log.map fun log =>
    if log.file.isSome && log.file == (files.locate path).toOption then
      { log with file := none }
    else log).bind Log.Setup.file = _
  rw [hlocate, Session.logFile]
  cases here.log with
  | none => simp
  | some log =>
    simp only [Option.map_some, Option.bind_some]
    by_cases hfile : log.file = some x
    · simp [hfile, Except.toOption]
    · simp [hfile, Except.toOption]

theorem exec_exportProgram (name text : Text) (here : Session) :
    exec (exportProgram name text) here =
      exec (perform (Export.write [] name text here.files).1 >>= fun _ => pure ())
        (here.exported (Export.write [] name text here.files)) := by
  rw [exportProgram, exec_get_bind]
  rfl

theorem exec_exportProgram_of_placed {name text : Text} {here : Session} {files : Files}
    (hplace : Export.place here.files (Path.ofText name) text = (none, files))
    (hwrite : Export.write [] name text here.files =
      (Export.written (Path.ofText name) text, files)) :
    ∃ there, exec (exportProgram name text) here = (.ok (), there) ∧
      here.Exports name text there := by
  obtain ⟨x, hlocate, hget, hothers⟩ := Export.place_eq_none hplace
  let now := here.exported (Export.written (Path.ofText name) text, files)
  let log := (Export.written (Path.ofText name) text).log
  have hexec : exec (exportProgram name text) here = (.ok (), now.recorded log) := by
    rw [exec_exportProgram, hwrite, exec_bind, exec_perform]
    rfl
  have hkeeps : now.Keeps (now.recorded log) := .recorded now log
  -- the log file is another one, or there is none any more
  have hlogFile : now.logFile = if here.logFile = some x then none else here.logFile :=
    Session.logFile_exported hlocate
  have hlog : now.logFile ≠ some x ∧ ∀ other, here.logFile ≠ some other →
      now.logFile ≠ some other := by
    rw [hlogFile]
    split_ifs with hsame
    · exact ⟨nofun, fun _ _ => nofun⟩
    · exact ⟨hsame, fun _ hother => hother⟩
  refine ⟨now.recorded log, hexec, hkeeps.stdout, x, ?_, ?_, fun other hother hlogFile => ?_⟩
  · rw [hkeeps.files.locate_eq]
    exact hlocate
  · rw [hkeeps.files.get? x hlog.1]
    exact hget
  · exact (hothers other hother).trans (.inl (hkeeps.files.get? other (hlog.2 other hlogFile)))

theorem exec_exportProgram_of_refused {name text : Text} {here : Session} {files : Files}
    {x : Run Path} {e : Failure} (h : Export.write [] name text here.files = (x, files))
    (hx : x.result = .error e) (hmade : Files.AddsDirectories here.files files) :
    ∃ there, exec (exportProgram name text) here = (.error (.raised e), there) ∧
      here.Spares there := by
  let now : Session := { here with files := files }
  have hnow : here.exported (x, files) = now := by
    simp only [Session.exported, hx, now]
  have hexec : exec (exportProgram name text) here = (.error (.raised e), now.recorded x.log) := by
    rw [exec_exportProgram, h, hnow, exec_bind, exec_perform, ending_of_error hx]
  have hspares : here.Spares now := ⟨rfl, rfl, fun at_ _ => hmade.untouched at_⟩
  exact ⟨_, hexec, hspares.trans (Session.Keeps.recorded now x.log).spares⟩

/-- A program takes the place of a file as a whole, or no file changes. -/
theorem exec_exportProgram_cases (name text : Text) (here : Session) :
    (∃ there, exec (exportProgram name text) here = (.ok (), there) ∧
      here.Exports name text there) ∨
    ∃ e there, exec (exportProgram name text) here = (.error (.raised e), there) ∧
      here.Spares there := by
  rcases Export.write_cases name text here.files with
    ⟨files, hwrite, hplace⟩ | ⟨x, e, files, hwrite, hx, hmade⟩
  · exact .inl (exec_exportProgram_of_placed hplace hwrite)
  · exact .inr ⟨e, exec_exportProgram_of_refused hwrite hx hmade⟩

/-- An open console takes a program as a whole. -/
theorem exec_print_writeProgram {here : Session} (hopen : here.stdout.room = none) (text : Text)
    (marks : Bool) :
    ∃ there, exec (print (Console.writeProgram text marks)) here = (.ok (), there) ∧
      here.Shows (Console.shown text marks) there := by
  obtain ⟨hrun, htext⟩ := Console.writeProgram_of_open hopen text marks
  let now : Session := { here with stdout := (Console.writeProgram text marks here.stdout).2 }
  have hkeeps : now.Keeps (now.recorded []) := .recorded now []
  refine ⟨now.recorded [], ?_, ?_, fun x hx => hkeeps.files.get? x hx⟩
  · rw [exec_print, hrun]
    rfl
  · rw [hkeeps.stdout]
    exact htext

/-! ## The command -/

section Deliver

variable {here there : Session} {s : Settings} {text : Text}

/-- How a program is delivered: in the way that settings ask for, or not at all. -/
theorem deliver_cases (s : Settings) (text : Text) :
    (∃ file, s.outputFile? = some file ∧ deliver s text = exportProgram file text) ∨
    (s.outputFile? = none ∧ deliver s text = print (Console.writeProgram text s.marks)) ∨
    deliver s text = perform (Run.fail .wrongKind) := by
  have hother : ∀ (v : Value) (x y : Command Unit),
      ((none : Option Text) = none ∧ (if v.isTrue then x else y) = y) ∨
        (if v.isTrue then x else y) = x := by
    intro v x y
    by_cases hv : v.isTrue = true
    · rw [if_pos hv]
      exact .inr rfl
    · rw [if_neg hv]
      exact .inl ⟨rfl, rfl⟩
  rw [Settings.outputFile?, deliver, Settings.marks]
  -- a text that is not empty names a file; any other value counts by its truth only
  generalize s.get "output.file" .null = v
  cases v with
  | scalar x =>
    cases x with
    | text t =>
      cases t with
      | nil => exact .inr (.inl ⟨rfl, rfl⟩)
      | cons c rest => exact .inl ⟨c :: rest, rfl, rfl⟩
    | _ => exact .inr (hother _ _ _)
  | _ => exact .inr (hother _ _ _)

theorem deliver_eq_ok (hopen : here.stdout.room = none)
    (h : exec (deliver s text) here = (.ok (), there)) : here.Delivers s text there := by
  rcases deliver_cases s text with ⟨file, hfile, hdeliver⟩ | ⟨hconsole, hdeliver⟩ | hdeliver
  · rw [hdeliver] at h
    rcases exec_exportProgram_cases file text here with ⟨_, hexec, hexports⟩ | ⟨_, _, hexec, -⟩
    · rw [hexec] at h
      cases h
      refine ⟨fun file' hfile' => ?_, fun hnone => ?_⟩
      · rw [hfile] at hfile'
        cases hfile'
        exact hexports
      · rw [hfile] at hnone
        cases hnone
    · rw [hexec] at h
      cases h
  · rw [hdeliver] at h
    obtain ⟨_, hexec, hshows⟩ := exec_print_writeProgram hopen text s.marks
    rw [hexec] at h
    cases h
    refine ⟨fun file hfile => ?_, fun _ => hshows⟩
    rw [hconsole] at hfile
    cases hfile
  · rw [hdeliver, exec_perform] at h
    cases h

theorem sparing_exportProgram (name text : Text) : Sparing (exportProgram name text) := by
  constructor
  · intro here there e _ h
    rcases exec_exportProgram_cases name text here with ⟨_, hexec, -⟩ | ⟨_, _, hexec, hspares⟩
    · rw [hexec] at h
      cases h
    · rw [hexec] at h
      cases h
      exact hspares
  · intro here
    rcases exec_exportProgram_cases name text here with ⟨_, hexec, -⟩ | ⟨_, _, hexec, -⟩
    · rw [hexec]
      exact nofun
    · rw [hexec]
      exact nofun

theorem sparing_print_writeProgram (text : Text) (marks : Bool) :
    Sparing (print (Console.writeProgram text marks)) := by
  constructor
  · intro here there e hopen h
    obtain ⟨_, hexec, -⟩ := exec_print_writeProgram hopen text marks
    rw [hexec] at h
    cases h
  · intro here
    rw [exec_print]
    exact ending_ne_help _

theorem sparing_deliver (s : Settings) (text : Text) : Sparing (deliver s text) := by
  rcases deliver_cases s text with ⟨file, -, hdeliver⟩ | ⟨-, hdeliver⟩ | hdeliver
  · rw [hdeliver]
    exact sparing_exportProgram file text
  · rw [hdeliver]
    exact sparing_print_writeProgram text s.marks
  · rw [hdeliver]
    exact (quiet_perform _).sparing

/-- The command fails and spares files, or it succeeds. -/
theorem sparing_generateProgram (platform : Platform) (a : GenerateArguments) :
    Sparing (generateProgram platform a) := by
  have hprogram : ∀ s, Sparing (program platform s >>= deliver s) := fun s =>
    Sparing.after (quiet_program platform s) (sparing_deliver s)
  exact Sparing.after (quiet_settings platform a) fun s =>
    (hprogram s).reported fun _ => quiet_perform _

/-- If the command succeeds, the program that it has generated is where settings ask for it. -/
theorem generateProgram_eq_ok {a : GenerateArguments} (hopen : here.stdout.room = none)
    (h : exec (generateProgram platform a) here = (.ok (), there)) :
    ∃ s text, here.Reads platform a s ∧ here.Generates platform s text ∧
      here.Delivers s text there := by
  obtain ⟨s, now, hsettings, h⟩ := exec_bind_eq_ok h
  obtain ⟨text, later, hprogram, hdeliver⟩ := exec_bind_eq_ok (exec_reported_eq_ok h)
  have hnow : here.Keeps now := (quiet_settings platform a).keeps_of_exec hsettings
  have hlater : here.Keeps later := hnow.trans ((quiet_program platform s).keeps_of_exec hprogram)
  have hdelivers : later.Delivers s text there :=
    deliver_eq_ok (hlater.stdout ▸ hopen) hdeliver
  exact ⟨s, text, ⟨here, .refl here, settings_eq_ok hsettings⟩,
    (program_eq_ok hprogram).of_keeps hnow, hdelivers.of_keeps hlater⟩

end Deliver

end Cli

end Tracewright
