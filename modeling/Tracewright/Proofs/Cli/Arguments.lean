/-
  Tracewright.Proofs.Cli.Arguments

  Reading words never ends in help if nobody asks for it: the word for help is
  not among them.

    * `Grammar.AsksBy`        — a question for help has one word.
    * `Grammar.scanLoop_cons_cases`
                              — what can come of one word.
    * `Grammar.scanLoop_asks` — where an option for help comes from.
    * `RootArguments.read_ne_help`, `subcommand_ne_help`,
      `GenerateArguments.read_ne_help`
                              — no word for help, no end in help.
    * `Parser.Lawful`         — what is relied on of a parser; the usual one
                                is lawful.
-/
import Mathlib.Tactic.SplitIfs
import Tracewright.Cli.Words

namespace Tracewright.Cli

variable {κ α : Type}

namespace Grammar

/-- An option has one long name, no letter, and takes no value. -/
structure AsksBy (g : Grammar κ) (help : κ) (ask : Text) : Prop where
  takesValue : g.takesValue help = false
  long : ∀ name, g.long.lookup name = some help → name = ask
  short : ∀ c, g.short.lookup c ≠ some help

variable {g : Grammar κ} {help : κ} {ask : Text}

/-- Letters never ask. -/
theorem AsksBy.letters (hg : g.AsksBy help ask) {t : Text} {given : List (Given κ)}
    {waiting : Option κ} (h : g.letters t = .ok (given, waiting)) :
    (∀ v, (help, v) ∉ given) ∧ waiting ≠ some help := by
  induction t generalizing given with
  | nil =>
    cases h
    exact ⟨fun _ => List.not_mem_nil, nofun⟩
  | cons c rest ih =>
    rw [Grammar.letters] at h
    cases hlookup : g.short.lookup c with
    | none => rw [hlookup] at h; cases h
    | some k =>
      -- no letter asks for help, so neither does what is given here nor what is waited for
      have hk : k ≠ help := fun heq => hg.short c (heq ▸ hlookup)
      rw [hlookup] at h
      simp only at h
      split_ifs at h
      · cases h
        exact ⟨fun _ => List.not_mem_nil, fun heq => hk (Option.some.inj heq)⟩
      · cases h
        refine ⟨fun v hv => ?_, nofun⟩
        rw [List.mem_singleton, Prod.mk.injEq] at hv
        exact hk hv.1.symm
      · cases hrest : g.letters rest with
        | error fault => rw [hrest] at h; cases h
        | ok r =>
          obtain ⟨given', waiting'⟩ := r
          rw [hrest] at h
          cases h
          obtain ⟨hgiven, hwaiting⟩ := ih hrest
          refine ⟨fun v hv => ?_, hwaiting⟩
          rcases List.mem_cons.1 hv with hv | hv
          · exact hk (Prod.mk.inj hv).1.symm
          · exact hgiven v hv

/-- A word asks only if it is the word for it. -/
theorem AsksBy.word (hg : g.AsksBy help ask) {w : Text} {given : List (Given κ)}
    {waiting : Option κ} (h : g.word w = .ok (given, waiting)) :
    (∀ v, (help, v) ∈ given → w = ask) ∧ waiting ≠ some help := by
  rw [Grammar.word] at h
  cases hlookup : g.long.lookup (attached w).1 with
  | none =>
    simp only [hlookup] at h
    split at h
    · cases h
    · obtain ⟨hgiven, hwaiting⟩ := hg.letters h
      exact ⟨fun v hv => absurd hv (hgiven v), hwaiting⟩
  | some k =>
    simp only [hlookup] at h
    -- an option that takes a value is another one
    cases htakes : g.takesValue k with
    | true =>
      have hk : k ≠ help := by
        rintro rfl
        rw [hg.takesValue] at htakes
        cases htakes
      cases hvalue : (attached w).2 with
      | some v =>
        simp only [htakes, hvalue] at h
        cases h
        refine ⟨fun v hv => ?_, nofun⟩
        rw [List.mem_singleton, Prod.mk.injEq] at hv
        exact absurd hv.1.symm hk
      | none =>
        simp only [htakes, hvalue] at h
        cases h
        exact ⟨fun _ hv => absurd hv List.not_mem_nil, fun heq => hk (Option.some.inj heq)⟩
    | false =>
      cases hvalue : (attached w).2 with
      | some v => simp only [htakes, hvalue] at h; cases h
      | none =>
        simp only [htakes, hvalue] at h
        cases h
        refine ⟨fun v hv => ?_, nofun⟩
        rw [List.mem_singleton, Prod.mk.injEq] at hv
        have hname : (attached w).1 = w := by
          rw [attached] at hvalue ⊢
          cases hcut : Text.cut? ['='] w with
          | none => rfl
          | some parts => rw [hcut] at hvalue; cases hvalue
        rw [← hname]
        exact hg.long _ (hv.1 ▸ hlookup)

/-- What can come of one word: it is the value of an option that waits for one, it ends the options,
    it gives some itself, or it is left over, with or without all words after it. -/
theorem scanLoop_cons_cases {waiting : Option κ} {w : Text} {rest left : List Text}
    {given : List (Given κ)} (h : g.scanLoop waiting (w :: rest) = .ok (given, left)) :
    (∃ k given', waiting = some k ∧ g.scanLoop none rest = .ok (given', left) ∧
      given = (k, w) :: given') ∨
    (w = "--" ∧ given = [] ∧ left = rest) ∨
    (∃ here waiting' given', g.word w = .ok (here, waiting') ∧
      g.scanLoop waiting' rest = .ok (given', left) ∧ given = here ++ given') ∨
    (∃ left', g.scanLoop none rest = .ok (given, left') ∧ left = w :: left') ∨
    (given = [] ∧ left = w :: rest) := by
  cases waiting with
  | some k =>
    -- the word is the value of the option before it, whatever it looks like
    rw [scanLoop] at h
    cases hrest : g.scanLoop none rest with
    | error fault => rw [hrest] at h; cases h
    | ok r =>
      rw [hrest] at h
      cases h
      exact .inl ⟨k, r.1, rfl, rfl, rfl⟩
  | none =>
    rw [scanLoop] at h
    by_cases hend : w = "--"
    · rw [if_pos hend] at h
      cases h
      exact .inr (.inl ⟨hend, rfl, rfl⟩)
    rw [if_neg hend] at h
    by_cases hoption : isOption w = true
    · rw [if_pos hoption] at h
      cases hword : g.word w with
      | error fault => rw [hword] at h; cases h
      | ok r =>
        obtain ⟨here, waiting'⟩ := r
        rw [hword] at h
        cases hrest : g.scanLoop waiting' rest with
        | error fault => simp only [bind, Except.bind, hrest] at h; cases h
        | ok r =>
          simp only [bind, Except.bind, hrest] at h
          cases h
          exact .inr (.inr (.inl ⟨here, waiting', r.1, rfl, hrest, rfl⟩))
    rw [if_neg hoption] at h
    by_cases hinterspersed : g.interspersed = true
    · rw [if_pos hinterspersed] at h
      cases hrest : g.scanLoop none rest with
      | error fault => rw [hrest] at h; cases h
      | ok r =>
        rw [hrest] at h
        cases h
        exact .inr (.inr (.inr (.inl ⟨r.2, rfl, rfl⟩)))
    · rw [if_neg hinterspersed] at h
      cases h
      exact .inr (.inr (.inr (.inr ⟨rfl, rfl⟩)))

/-- Where an option for help comes from, and the words that are left over. -/
theorem scanLoop_asks (hg : g.AsksBy help ask) {waiting : Option κ} {words left : List Text}
    {given : List (Given κ)} (hwaiting : waiting ≠ some help)
    (h : g.scanLoop waiting words = .ok (given, left)) :
    (∀ v, (help, v) ∈ given → ask ∈ words) ∧ ∀ w ∈ left, w ∈ words := by
  induction words generalizing waiting given left with
  | nil =>
    cases waiting with
    | some k => cases h
    | none =>
      cases h
      exact ⟨fun _ hv => absurd hv List.not_mem_nil, fun _ hw => hw⟩
  | cons w rest ih =>
    have hmore : ∀ {v : Text}, v ∈ rest → v ∈ w :: rest := List.mem_cons_of_mem w
    have hnone : (none : Option κ) ≠ some help := nofun
    rcases scanLoop_cons_cases h with ⟨k, given', rfl, hrest, rfl⟩ | ⟨-, rfl, rfl⟩ |
      ⟨here, waiting', given', hword, hrest, rfl⟩ | ⟨left', hrest, rfl⟩ | ⟨rfl, rfl⟩
    · -- a value does not ask, whatever it says
      obtain ⟨hgiven, hleft⟩ := ih hnone hrest
      refine ⟨fun v hv => ?_, fun w hw => hmore (hleft w hw)⟩
      rcases List.mem_cons.1 hv with hv | hv
      · exact absurd (congrArg some (Prod.mk.inj hv).1.symm) hwaiting
      · exact hmore (hgiven v hv)
    · exact ⟨fun _ hv => absurd hv List.not_mem_nil, fun _ hw => hmore hw⟩
    · obtain ⟨hhere, hwaiting'⟩ := hg.word hword
      obtain ⟨hgiven, hleft⟩ := ih hwaiting' hrest
      refine ⟨fun v hv => ?_, fun w hw => hmore (hleft w hw)⟩
      rcases List.mem_append.1 hv with hv | hv
      · exact hhere v hv ▸ List.mem_cons_self
      · exact hmore (hgiven v hv)
    · obtain ⟨hgiven, hleft⟩ := ih hnone hrest
      refine ⟨fun v hv => hmore (hgiven v hv), List.forall_mem_cons.2 ⟨List.mem_cons_self, ?_⟩⟩
      exact fun w' hw => hmore (hleft w' hw)
    · exact ⟨fun _ hv => absurd hv List.not_mem_nil, fun _ hw => hw⟩

end Grammar

/-! ## Settling options -/

/-- Taking up options ends in help only if taking one of them does. -/
theorem settle_ne_help [DecidableEq κ] {take : α → κ → Text → Except Exit α}
    (htake : ∀ a k v, take a k v ≠ .error .help) (start : α) (given : List (Given κ)) :
    settle take start given ≠ .error .help := by
  rw [settle]
  induction (given.map (·.1)).eraseDups generalizing start with
  | nil => exact nofun
  | cons k ks ih =>
    rw [List.foldlM_cons]
    cases hvalue : lastValue? given k with
    | none => exact ih start
    | some v =>
      simp only
      cases hstep : take start k v with
      | ok a => exact ih a
      | error e => exact fun h => htake start k v (hstep.trans h)

/-- Options are settled without help if nobody asks for it; the words that are left over have
    been there before. -/
theorem settleOptions_ne_help [DecidableEq κ] {g : Grammar κ} {help : κ} {ask : Text}
    (hg : g.AsksBy help ask) {take : α → κ → Text → Except Exit α}
    (htake : ∀ a k v, take a k v ≠ .error .help) {start : α} {words : List Text}
    (hask : ask ∉ words) :
    settleOptions g help take start words ≠ .error .help ∧
      ∀ a left, settleOptions g help take start words = .ok (a, left) → ∀ w ∈ left, w ∈ words := by
  rw [settleOptions, Grammar.scan]
  cases hscan : g.scanLoop none words with
  | error fault => exact ⟨nofun, nofun⟩
  | ok r =>
    obtain ⟨given, left⟩ := r
    have hwaiting : (none : Option κ) ≠ some help := nofun
    obtain ⟨hgiven, hleft⟩ := Grammar.scanLoop_asks hg hwaiting hscan
    -- help is asked for by its word only, which does not stand among the words
    have hnone : ¬ (lastValue? given help).isSome = true := by
      intro hsome
      obtain ⟨v, hv⟩ := Option.isSome_iff_exists.1 hsome
      obtain ⟨_, _, hsplit, -⟩ := List.lookup_eq_some_iff.1 hv
      have hmem : (help, v) ∈ given.reverse := hsplit ▸ List.mem_append_right _ List.mem_cons_self
      exact hask (hgiven v (List.mem_reverse.1 hmem))
    simp only [if_neg hnone]
    cases hsettle : settle take start given with
    | error e =>
      refine ⟨fun h => ?_, nofun⟩
      cases h
      exact settle_ne_help htake start given hsettle
    | ok a =>
      refine ⟨nofun, fun a' left' h => ?_⟩
      cases h
      exact hleft

/-! ## Values -/

theorem choice_ne_help (choices : List Text) (value : Text) :
    choice choices value ≠ .error .help := by
  rw [choice]
  split_ifs <;> exact nofun

theorem integer_ne_help (value : Text) : integer value ≠ .error .help := by
  rw [integer]
  split <;> exact nofun

theorem fileName_ne_help (value : Text) : fileName value ≠ .error .help := by
  rw [fileName]
  split_ifs <;> exact nofun

/-- A value that is taken up in some way is refused as before. -/
theorem map_ne_help {β : Type} {x : Except Exit β} (h : x ≠ .error .help) (f : β → α) :
    x.map f ≠ .error .help := by
  cases x with
  | ok b => exact nofun
  | error e => exact fun he => h (by cases he; rfl)

theorem bind_ne_help {β : Type} {x : Except Exit α} {f : α → Except Exit β}
    (hx : x ≠ .error .help) (hf : ∀ a, f a ≠ .error .help) : x >>= f ≠ .error .help := by
  cases x with
  | ok a => exact hf a
  | error e => exact fun he => hx (by cases he; rfl)

theorem existingFile_ne_help (files : Files) (value : Text) :
    existingFile files value ≠ .error .help := by
  refine bind_ne_help (fileName_ne_help value) fun name => ?_
  split <;> exact nofun

theorem existingDirectory_ne_help (files : Files) (value : Text) :
    existingDirectory files value ≠ .error .help := by
  refine bind_ne_help (fileName_ne_help value) fun name => ?_
  split <;> exact nofun

/-! ## Arguments -/

/-- An option that is found under a name is listed under it. -/
theorem mem_of_lookup [BEq κ] [LawfulBEq κ] {l : List (κ × α)} {k : κ} {a : α}
    (h : l.lookup k = some a) : (k, a) ∈ l := by
  obtain ⟨_, _, rfl, -⟩ := List.lookup_eq_some_iff.1 h
  exact List.mem_append_right _ List.mem_cons_self

theorem rootGrammar_asksBy : rootGrammar.AsksBy .help "--help" where
  takesValue := rfl
  long := by
    intro name h
    have hmem := mem_of_lookup h
    simpa [rootGrammar] using hmem
  short := nofun

theorem generateGrammar_asksBy : generateGrammar.AsksBy .help "--help" where
  takesValue := rfl
  long := by
    intro name h
    have hmem := mem_of_lookup h
    simpa [generateGrammar] using hmem
  short := by
    intro c h
    have hmem := mem_of_lookup h
    simp [generateGrammar] at hmem

theorem RootArguments.read_ne_help {words : List Text} (h : ("--help" : Text) ∉ words) :
    RootArguments.read words ≠ .error .help ∧
      ∀ a left, RootArguments.read words = .ok (a, left) → ∀ w ∈ left, w ∈ words := by
  refine settleOptions_ne_help rootGrammar_asksBy (fun a k v => ?_) h
  cases k with
  | level => exact map_ne_help (choice_ne_help _ v) _
  | logFile => exact map_ne_help (fileName_ne_help v) _
  | help => exact nofun

theorem GenerateArguments.read_ne_help (files : Files) {words : List Text}
    (h : ("--help" : Text) ∉ words) : GenerateArguments.read files words ≠ .error .help := by
  have htake : ∀ a k v, take files a k v ≠ .error .help := by
    intro a k v
    cases k with
    | config => exact map_ne_help (fileName_ne_help v) _
    | pid => exact map_ne_help (integer_ne_help v) _
    | policy => exact map_ne_help (choice_ne_help _ v) _
    | packets => exact map_ne_help (integer_ne_help v) _
    | catalog => exact map_ne_help (existingFile_ne_help files v) _
    | directory => exact map_ne_help (existingDirectory_ne_help files v) _
    | output => exact map_ne_help (fileName_ne_help v) _
    | expression => exact nofun
    | fullFeature => exact nofun
    | debug => exact nofun
    | help => exact nofun
  have hsettle : settleOptions generateGrammar .help (take files) {} words ≠ .error .help :=
    (settleOptions_ne_help generateGrammar_asksBy htake h).1
  rw [read, settleAll]
  cases hread : settleOptions generateGrammar .help (take files) {} words with
  | error e =>
    intro he
    cases he
    exact hsettle hread
  | ok r =>
    obtain ⟨a, left⟩ := r
    show (if left.isEmpty then Except.ok a else .error (Exit.usage (.extraWords left))) ≠
      .error Exit.help
    split_ifs <;> exact nofun

theorem subcommand_ne_help {words : List Text} (h : ("--help" : Text) ∉ words) :
    subcommand words ≠ .error .help ∧
      ∀ c left, subcommand words = .ok (c, left) → ∀ w ∈ left, w ∈ words := by
  cases words with
  | nil => exact ⟨nofun, nofun⟩
  | cons name rest =>
    rw [subcommand]
    cases Subcommand.named.lookup name with
    | some c =>
      refine ⟨nofun, fun c' left hleft w hw => ?_⟩
      cases hleft
      exact List.mem_cons_of_mem _ hw
    | none =>
      -- the words are read as options once more
      cases hread : RootArguments.read (name :: rest) with
      | error e =>
        have hne : e ≠ .help := fun he => (RootArguments.read_ne_help h).1 (he ▸ hread)
        exact ⟨fun he => hne (by cases he; rfl), nofun⟩
      | ok r => exact ⟨nofun, nofun⟩

/-! ## Parsers -/

/-- What is relied on of a parser: words ask for help with one word, and the words that a parser
    hands on are among those it is given.  No words at all can mean a question for help. -/
structure Parser.Lawful (parser : Parser) : Prop where
  root_ne_help : ∀ words, words ≠ [] → ("--help" : Text) ∉ words →
    parser.root words ≠ .error .help
  root_left : ∀ words a left, ("--help" : Text) ∉ words →
    parser.root words = .ok (a, left) → ∀ w ∈ left, w ∈ words
  command_ne_help : ∀ words, ("--help" : Text) ∉ words → parser.command words ≠ .error .help
  command_left : ∀ words c left, ("--help" : Text) ∉ words →
    parser.command words = .ok (c, left) → ∀ w ∈ left, w ∈ words
  generate_ne_help : ∀ files words, ("--help" : Text) ∉ words →
    parser.generate files words ≠ .error .help

theorem Parser.usual_lawful : Parser.usual.Lawful where
  root_ne_help _ _ h := (RootArguments.read_ne_help h).1
  root_left _ a left h := (RootArguments.read_ne_help h).2 a left
  command_ne_help _ h := (subcommand_ne_help h).1
  command_left _ c left h := (subcommand_ne_help h).2 c left
  generate_ne_help files _ h := GenerateArguments.read_ne_help files h

end Tracewright.Cli
