/-
  Tracewright.Proofs.Cli.Program

  The whole program, called to generate a program: it puts the program in one
  place, as a whole, or it leaves nothing behind but records.

    * `Start`             — a call that comes as far as opening its log.
    * `IsLogFile`         — where the log file of a call is.
    * `Outcome.IsNothing` — nothing has been put out or changed.
    * `Outcome.Holds`     — a program has been put where settings ask for it.
    * `run_generate`      — a call ends in nothing, or it holds the program
                            that is generated for its settings.

  The reader of documents is any, and so is the parser of words, as long as it
  asks for help by one word.
-/
import Tracewright.Cli.Program
import Tracewright.Proofs.Cli.Arguments
import Tracewright.Proofs.Cli.Generate
import Tracewright.Yaml.Document

namespace Tracewright

/-! ## The log file -/

namespace Log.Setup

variable {word : Text} {file : Option Text} {colours : Bool} {files : Files}

/-- A set-up changes no file but the log file. -/
theorem make_eq_ok {opened : Files} {log : Log.Setup}
    (h : make word file colours files = .ok (log, opened)) :
    ∀ x, log.file ≠ some x → opened.get? x = files.get? x := by
  rw [make] at h
  cases hlevel : Level.ofWord word with
  | error e => rw [hlevel] at h; cases h
  | ok threshold =>
    rw [hlevel] at h
    match file with
    | none => cases h; exact fun _ _ => rfl
    | some [] => cases h; exact fun _ _ => rfl
    | some (c :: rest) =>
      cases hopen : files.openEnd (files.absolute (Path.ofText (c :: rest))) with
      | error fault => simp only [bind, Except.bind, hopen] at h; cases h
      | ok r =>
        obtain ⟨at_, files'⟩ := r
        simp only [bind, Except.bind, hopen] at h
        cases h
        obtain ⟨-, -, hothers⟩ := Files.openEnd_eq_ok hopen
        exact fun x hx => hothers x fun hat => hx (congrArg some hat.symm)

/-- Starting a log changes no file but the log file. -/
theorem get?_start {c : Started} (h : start word file colours files = .ok c) {x : Location}
    (hx : c.setup.file ≠ some x) : c.files.get? x = files.get? x := by
  rw [start] at h
  cases hmake : make word file colours files with
  | error e => rw [hmake] at h; cases h
  | ok r =>
    obtain ⟨log, opened⟩ := r
    rw [hmake] at h
    cases h
    exact ((log.sameBut_writeFile _ opened).get? x hx).trans (make_eq_ok hmake x hx)

end Log.Setup

namespace Cli

variable {platform : Platform} {parser : Parser} {files : Files} {words : List Text}

/-- A call that comes as far as opening its log: what its words say before the name of the
    command, and the log with the files as they are then. -/
structure Start (parser : Parser) (files : Files) (words : List Text) where
  root : RootArguments
  rest : List Text
  log : Log.Setup.Started
  read : parser.root words = .ok (root, rest)
  start : Log.Setup.start root.level root.logFile true files = .ok log

namespace Start

/-- The session in which the command is run. -/
def session (c : Start parser files words) (host : Host) : Session :=
  { host, files := c.log.files, log := some c.log.setup, stderr := c.log.stderr }

theorem log_eq (c c' : Start parser files words) : c'.log = c.log := by
  obtain ⟨root, rest, log, hread, hstart⟩ := c
  obtain ⟨root', rest', log', hread', hstart'⟩ := c'
  cases hread.symm.trans hread'
  cases hstart.symm.trans hstart'
  rfl

end Start

/-- A call has its log file at a location. -/
def IsLogFile (parser : Parser) (files : Files) (words : List Text) (x : Location) : Prop :=
  ∃ c : Start parser files words, c.log.setup.file = some x

theorem isLogFile_iff (c : Start parser files words) {x : Location} :
    IsLogFile parser files words x ↔ c.log.setup.file = some x := by
  constructor
  · rintro ⟨c', hx⟩
    rwa [c.log_eq c'] at hx
  · intro hx
    exact ⟨c, hx⟩

theorem Start.get?_files (c : Start parser files words) {x : Location}
    (hx : ¬ IsLogFile parser files words x) : c.log.files.get? x = files.get? x :=
  Log.Setup.get?_start c.start fun hfile => hx ((isLogFile_iff c).2 hfile)

/-! ## Outcomes -/

/-- Nothing has been put out, and no file but the log file has been made or changed. -/
structure Outcome.IsNothing (o : Outcome) (parser : Parser) (files : Files) (words : List Text) :
    Prop where
  stdout : o.stdout = []
  files : ∀ x, ¬ IsLogFile parser files words x → Files.Untouched files o.files x

/-- A program is in the file that settings name, or else it has been put out; beside it no file
    but the log file has been made or changed, and nothing has been put out. -/
structure Outcome.Holds (o : Outcome) (parser : Parser) (files : Files) (words : List Text)
    (s : Settings) (text : Text) : Prop where
  toFile : ∀ file, s.outputFile? = some file →
    o.stdout = [] ∧
    ∃ x, o.files.locate (Path.ofText file) = .ok x ∧
      o.files.get? x = some (.file (Text.Utf8.encode text)) ∧
      ∀ other, other ≠ x → ¬ IsLogFile parser files words other →
        Files.Untouched files o.files other
  toConsole : s.outputFile? = none →
    o.stdout = Console.shown text s.marks ∧
    ∀ x, ¬ IsLogFile parser files words x → o.files.get? x = files.get? x

/-! ## The steps of a call -/

/-- The command that words call, if they can be read as far as that. -/
def called? (parser : Parser) (words : List Text) : Option Subcommand :=
  match parser.root words with
  | .ok (_, rest) =>
    match parser.command rest with
    | .ok (c, _) => some c
    | .error _ => none
  | .error _ => none

theorem Start.exec_openLog (c : Start parser files words) (host : Host) :
    exec (openLog c.root) { host, files } = (.ok (), c.session host) := by
  unfold openLog
  rw [exec_get_bind, c.start]
  rfl

theorem exec_openLog_of_error {root : RootArguments} {host : Host} {e : Failure}
    (h : Log.Setup.start root.level root.logFile true files = .error e) :
    exec (openLog root) { host, files } = (.error (.raised e), { host, files }) := by
  unfold openLog
  rw [exec_get_bind, h]
  rfl

/-- A call that generates a program ends before anything has happened, or its command is run in
    the session that its log has opened. -/
theorem exec_commandLine_cases (platform : Platform) (hparser : parser.Lawful) (host : Host)
    (hwords : words ≠ []) (hhelp : ("--help" : Text) ∉ words)
    (hgenerate : ∀ c, called? parser words = some c → c = .generate) :
    (∃ e, e ≠ .help ∧
      exec (commandLine platform parser words) { host, files } = (.error e, { host, files })) ∨
    ∃ (c : Start parser files words) (args : List Text),
      parser.command c.rest = .ok (.generate, args) ∧ ("--help" : Text) ∉ args ∧
      exec (commandLine platform parser words) { host, files } =
        exec (ofRead (parser.generate c.log.files args) >>= generateProgram platform)
          (c.session host) := by
  have hcommand : commandLine platform parser words = ofRead (parser.root words) >>= fun r =>
      ofRead (parser.command r.2) >>= fun c => openLog r.1 >>= fun _ =>
        c.1.run platform parser c.2 := rfl
  rw [hcommand]
  -- the words are read twice before the log is opened; whatever fails so far has touched nothing
  cases hread : parser.root words with
  | error e =>
    exact .inl ⟨e, fun he => hparser.root_ne_help words hwords hhelp (he ▸ hread), rfl⟩
  | ok r =>
    obtain ⟨root, rest⟩ := r
    have hrestHelp : ("--help" : Text) ∉ rest := fun hmem =>
      hhelp (hparser.root_left words root rest hhelp hread _ hmem)
    have hroot : exec (ofRead (.ok (root, rest)) >>= fun r : RootArguments × List Text =>
          ofRead (parser.command r.2) >>= fun c => openLog r.1 >>= fun _ =>
            c.1.run platform parser c.2) { host, files } =
        exec (ofRead (parser.command rest) >>= fun c => openLog root >>= fun _ =>
          c.1.run platform parser c.2) { host, files } := rfl
    rw [hroot]
    cases hsub : parser.command rest with
    | error e => exact .inl ⟨e, fun he => hparser.command_ne_help rest hrestHelp (he ▸ hsub), rfl⟩
    | ok r =>
      obtain ⟨command, args⟩ := r
      have hcalled : called? parser words = some command := by
        simp only [called?, hread, hsub]
      obtain rfl := hgenerate command hcalled
      have hopening : exec (ofRead (.ok (.generate, args)) >>= fun c : Subcommand × List Text =>
            openLog root >>= fun _ => c.1.run platform parser c.2) { host, files } =
          exec (openLog root >>= fun _ => Subcommand.generate.run platform parser args)
            { host, files } := rfl
      rw [hopening]
      cases hstart : Log.Setup.start root.level root.logFile true files with
      | error e =>
        exact .inl ⟨.raised e, nofun, exec_bind_of_error (exec_openLog_of_error hstart) _⟩
      | ok log =>
        let c : Start parser files words := ⟨root, rest, log, hread, hstart⟩
        have hargs : ("--help" : Text) ∉ args := fun hmem =>
          hrestHelp (hparser.command_left rest _ args hrestHelp hsub _ hmem)
        refine .inr ⟨c, args, hsub, hargs, ?_⟩
        exact exec_bind_of_ok (c.exec_openLog host) _

theorem Start.holds (c : Start parser files words) {host : Host} {s : Settings} {text : Text}
    {there : Session} (h : (c.session host).Delivers s text there) (exit : Option Exit) :
    Outcome.Holds ⟨exit, there.stdout.text, there.stderr, there.files⟩ parser files words s
      text where
  toFile := by
    intro file hfile
    obtain ⟨hstdout, x, hlocate, hget, hothers⟩ := h.toFile file hfile
    have hempty : there.stdout.text = [] := by rw [hstdout]; rfl
    refine ⟨hempty, x, hlocate, hget, fun other hother hlog => ?_⟩
    have hopened : Files.Untouched files c.log.files other := .inl (c.get?_files hlog)
    exact hopened.trans (hothers other hother fun hfile => hlog ((isLogFile_iff c).2 hfile))
  toConsole := by
    intro hconsole
    obtain ⟨hstdout, hfiles⟩ := h.toConsole hconsole
    refine ⟨hstdout, fun x hx => ?_⟩
    rw [hfiles x fun hfile => hx ((isLogFile_iff c).2 hfile)]
    exact c.get?_files hx

theorem Start.isNothing (c : Start parser files words) {host : Host} {there : Session}
    (h : (c.session host).Spares there) (exit : Option Exit) :
    Outcome.IsNothing ⟨exit, there.stdout.text, there.stderr, there.files⟩ parser files words where
  stdout := by
    show there.stdout.text = []
    rw [h.stdout]
    rfl
  files := by
    intro x hx
    have hopened : Files.Untouched files c.log.files x := .inl (c.get?_files hx)
    exact hopened.trans (h.files x fun hfile => hx ((isLogFile_iff c).2 hfile))

/-! ## The whole program -/

theorem run_eq_of_error {host : Host} {e : Exit} {there : Session}
    (h : exec (commandLine platform parser words) { host, files } = (.error e, there)) :
    run platform parser host files words =
      ⟨some e, there.stdout.text, there.stderr, there.files⟩ := by
  rw [exec] at h
  rw [run, h]

theorem run_eq_of_ok {host : Host} {there : Session}
    (h : exec (commandLine platform parser words) { host, files } = (.ok (), there)) :
    run platform parser host files words =
      ⟨none, there.stdout.text, there.stderr, there.files⟩ := by
  rw [exec] at h
  rw [run, h]

theorem code_ne_zero {e : Exit} (he : e ≠ .help) : e.code ≠ 0 := by
  cases e with
  | help => exact absurd rfl he
  | usage _ => exact nofun
  | failed => exact nofun
  | raised _ => exact nofun

/-- A call that generates a program ends in nothing, or it holds the program that is generated
    for its settings: from the files as they are when its log has been opened, if the log file is
    none of those that it reads. -/
theorem run_generate (platform : Platform) (parser : Parser) (hparser : parser.Lawful)
    (host : Host) (files : Files) (words : List Text) (hwords : words ≠ [])
    (hhelp : ("--help" : Text) ∉ words)
    (hgenerate : ∀ c, called? parser words = some c → c = .generate) :
    ((run platform parser host files words).code ≠ 0 →
      (run platform parser host files words).IsNothing parser files words) ∧
    ((run platform parser host files words).code = 0 →
      ∃ (c : Start parser files words) (args : List Text) (a : GenerateArguments) (s : Settings)
        (text : Text),
        parser.command c.rest = .ok (.generate, args) ∧
        parser.generate c.log.files args = .ok a ∧
        (c.session host).Reads platform a s ∧ (c.session host).Generates platform s text ∧
        ((c.session host).Apart a s →
          (callSettings platform a c.log.files).result = .ok s ∧
          (programOf platform s host c.log.files).result = .ok text) ∧
        (run platform parser host files words).Holds parser files words s text) := by
  rcases exec_commandLine_cases platform hparser host hwords hhelp hgenerate with
    ⟨e, he, hexec⟩ | ⟨c, args, hsub, hargsHelp, hexec⟩
  · rw [run_eq_of_error hexec]
    exact ⟨fun _ => ⟨rfl, fun _ _ => .inl rfl⟩, fun hcode => absurd hcode (code_ne_zero he)⟩
  have hopen : (c.session host).stdout.room = none := rfl
  cases hread : parser.generate c.log.files args with
  | error e =>
    -- the options make no sense
    have he : e ≠ .help := fun he =>
      hparser.generate_ne_help c.log.files args hargsHelp (he ▸ hread)
    have hkeeps : (c.session host).Keeps (c.session host) := .refl _
    rw [hread] at hexec
    rw [run_eq_of_error (hexec.trans rfl)]
    exact ⟨fun _ => c.isNothing hkeeps.spares _, fun hcode => absurd hcode (code_ne_zero he)⟩
  | ok a =>
    have hcommand : exec (commandLine platform parser words) { host, files } =
        exec (generateProgram platform a) (c.session host) := by
      rw [hexec, hread]
      rfl
    rcases hend : exec (generateProgram platform a) (c.session host) with ⟨e | _, there⟩
    · have hsparing := sparing_generateProgram platform a
      rw [run_eq_of_error (hcommand.trans hend)]
      exact ⟨fun _ => c.isNothing (hsparing.spares hopen hend) _,
        fun hcode => absurd hcode (code_ne_zero (hsparing.noHelp.ne_help hend))⟩
    · obtain ⟨s, text, ⟨at_, hat, hsettings⟩, hgenerates, hdelivers⟩ :=
        generateProgram_eq_ok hopen hend
      have hreads : (c.session host).Reads platform a s := ⟨at_, hat, hsettings⟩
      rw [run_eq_of_ok (hcommand.trans hend)]
      refine ⟨fun hcode => absurd rfl hcode, fun _ => ⟨c, args, a, s, text, hsub, hread, hreads,
        hgenerates, fun hapart => ?_, c.holds hdelivers none⟩⟩
      exact ⟨hreads.of_apart hapart, hgenerates.of_apart hapart⟩

/-- Fragments that are hardly more than their markers, a listing of no system calls, and settings
    that are held twice. -/
def workshop : Files where
  nodes := [
    (["t"], .directory),
    (["t", "trace_head.c"], .file (Text.Utf8.encode "#include \"trace.h\"\n")),
    (["t", "trace.h"], .file (Text.Utf8.encode "int x;")),
    (["t", "trace_tracepoints.c"], .file []),
    (["t", "pid_own_hook.c"], .file (Text.Utf8.encode "MY_OWN_PID")),
    (["c"], .file (Text.Utf8.encode "[]")),
    (["s"], .file (Text.Utf8.encode "generator: &g {string_packets: 3}\nold: *g\n"))]
  home := []

def workshopWords : List Text :=
  ["--log-level", "DEBUG", "generate", "--config", "s", "--catalog", "c", "--template-dir", "t",
    "--output", "o"]

/-- The program in the workshop. -/
def workshopRun (words : List Text) : Outcome :=
  run Yaml.platform Parser.usual { own := 7 } workshop words

/-- An expression that selects nothing leaves nothing behind; a program that can be generated is
    held. -/
theorem run_generate_workshop :
    (workshopRun ["generate", "--expr", "nope"]).IsNothing Parser.usual workshop
        ["generate", "--expr", "nope"] ∧
      (workshopRun workshopWords).code = 0 ∧
      ∃ s text,
        (workshopRun workshopWords).Holds Parser.usual workshop workshopWords s text := by
  have hnope : called? Parser.usual ["generate", "--expr", "nope"] = some .generate := by
    decide +kernel
  have hcalled : called? Parser.usual workshopWords = some .generate := by decide +kernel
  have hfails : (workshopRun ["generate", "--expr", "nope"]).code ≠ 0 := by decide +kernel
  have hends : (workshopRun workshopWords).code = 0 := by decide +kernel
  have hlaws := Parser.usual_lawful
  refine ⟨(run_generate Yaml.platform Parser.usual hlaws { own := 7 } workshop
    ["generate", "--expr", "nope"] nofun (by decide) fun c hc => ?_).1 hfails, hends, ?_⟩
  · rw [hnope] at hc
    exact (Option.some.inj hc).symm
  · obtain ⟨_, _, _, s, text, _, _, _, _, _, hholds⟩ :=
      (run_generate Yaml.platform Parser.usual hlaws { own := 7 } workshop workshopWords nofun
        (by decide) fun c hc => by
          rw [hcalled] at hc
          exact (Option.some.inj hc).symm).2 hends
    exact ⟨s, text, hholds⟩

end Cli

end Tracewright
