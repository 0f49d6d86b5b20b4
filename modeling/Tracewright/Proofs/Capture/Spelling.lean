/-
  Tracewright.Proofs.Capture.Spelling

  Which spellings the vocabularies of the library know: the names of
  selections, the words of the ways to read strings, and the names of
  capabilities.

    * `Selection.result_resolve_eq_ok_iff`, `Mask.flag?_eq_some_iff`
                        — a name is known by its spellings.
    * `ReadPolicy.parse_eq_ok_iff`
                        — a word is, and nothing but a text is one.
    * `words_spelled`   — all three together, and how everything else fails.
-/
import Tracewright.Proofs.Capture.Selection
import Tracewright.Proofs.Fragment.Loading
import Tracewright.Proofs.Syscall.Listing
import Tracewright.Proofs.Syscall.Mask
import Tracewright.Proofs.Text.Case

namespace Tracewright

open Text (Spells)

/-- Without a key that is there twice, what is found under a key is what is listed with it. -/
theorem lookup_eq_some_iff_mem {α β : Type} [BEq α] [LawfulBEq α] {l : List (α × β)} {a : α}
    {b : β} (hl : (l.map Prod.fst).Nodup) : l.lookup a = some b ↔ (a, b) ∈ l := by
  refine ⟨fun h => ?_, lookup_of_mem hl⟩
  obtain ⟨before, after, rfl, -⟩ := List.lookup_eq_some_iff.1 h
  exact List.mem_append_right _ List.mem_cons_self

/-! ## Selections -/

namespace Selection

variable {s : Text} {selection : Selection}

/-- The characters beside its letters that a name of a selection can be spelled with. -/
def others : List (Text × Char) := [(['k'], '\u212a')]

theorem nodup_names : (named.map Prod.fst).Nodup := by decide

theorem isFolded_of_mem : ∀ e ∈ named, Text.IsFolded Char.toLower e.1 := by decide

/-- A name is known by its spellings. -/
theorem ofName?_eq_some_iff :
    ofName? s = some selection ↔ ∃ name, (name, selection) ∈ named ∧ Spells others name s := by
  rw [ofName?, lookup_eq_some_iff_mem nodup_names]
  constructor
  · intro h
    exact ⟨Text.lower s, h, (Text.lower_eq_iff (isFolded_of_mem _ h)).1 rfl⟩
  · rintro ⟨name, hname, hs⟩
    rwa [(Text.lower_eq_iff (isFolded_of_mem _ hname)).2 hs]

theorem result_resolve_eq_ok_iff :
    (resolve (some s)).result = .ok selection ↔
      ∃ name, (name, selection) ∈ named ∧ Spells others name s := by
  rw [result_resolve, Option.getD_some, ← ofName?_eq_some_iff]
  cases ofName? s with
  | none => exact ⟨nofun, nofun⟩
  | some found => rw [Except.ok.injEq, Option.some_inj]

/-- Every other name is unknown. -/
theorem result_resolve_eq_error_iff :
    (resolve (some s)).result = .error (.unknownExpression s) ↔
      ∀ e ∈ named, ¬ Spells others e.1 s := by
  rw [result_resolve, Option.getD_some]
  cases hs : ofName? s with
  | none =>
    refine ⟨fun _ e he hspells => ?_, fun _ => rfl⟩
    rw [ofName?_eq_some_iff.2 ⟨e.1, he, hspells⟩] at hs
    cases hs
  | some found =>
    obtain ⟨name, hname, hspells⟩ := ofName?_eq_some_iff.1 hs
    exact ⟨nofun, fun h => absurd hspells (h _ hname)⟩

end Selection

/-! ## Texts that are no words -/

/-- The first character of a text is not one that the words of policies start with. -/
def AvoidsF (t : Text) : Prop := ∀ c ∈ t.head?, c ≠ 'f' ∧ c ≠ 'F'

theorem avoidsF_nil : AvoidsF [] := by simp [AvoidsF]

theorem avoidsF_cons {c : Char} {t : Text} : AvoidsF (c :: t) ↔ c ≠ 'f' ∧ c ≠ 'F' := by
  simp [AvoidsF]

theorem AvoidsF.append {t u : Text} (ht : AvoidsF t) (hu : t = [] → AvoidsF u) :
    AvoidsF (t ++ u) := by
  cases t with
  | nil => exact hu rfl
  | cons c t => exact avoidsF_cons.2 (avoidsF_cons.1 ht)

theorem avoidsF_of_isDigit {t : Text} (h : ∀ c ∈ t, c.isDigit = true) : AvoidsF t := by
  cases t with
  | nil => exact avoidsF_nil
  | cons c t =>
    have hc := h c List.mem_cons_self
    rw [avoidsF_cons]
    constructor
    · rintro rfl
      cases hc
    · rintro rfl
      cases hc

theorem isDigit_toDigits {n : Nat} : ∀ c ∈ Nat.toDigits 10 n, c.isDigit = true :=
  fun _ => Nat.isDigit_of_mem_toDigits (by decide) (by decide)

theorem Numeral.avoidsF_decimal (n : Int) : AvoidsF (Numeral.decimal n) := by
  rw [decimal, signed]
  split_ifs
  · exact avoidsF_cons.2 (by decide)
  · exact avoidsF_of_isDigit isDigit_toDigits

namespace Double

variable {digits : Text}

theorem avoidsF_positional (hdigits : ∀ c ∈ digits, c.isDigit = true) (point : Int) :
    AvoidsF (layout.positional digits point) := by
  rw [Layout.positional]
  split_ifs with hpoint hwhole
  · exact avoidsF_cons.2 (by decide)
  -- without digits there is nothing but noughts and the suffix
  · rw [List.append_assoc]
    refine (avoidsF_of_isDigit hdigits).append fun _ => AvoidsF.append (fun c hc => ?_) fun _ => ?_
    · rw [List.eq_of_mem_replicate (List.mem_of_mem_head? hc)]
      decide
    · exact avoidsF_cons.2 (by decide)
  -- the point stands in front, or behind a digit
  · exact (avoidsF_of_isDigit fun c hc => hdigits c (List.mem_of_mem_take hc)).append
      fun _ => avoidsF_cons.2 (by decide)

theorem avoidsF_scientific (hdigits : ∀ c ∈ digits, c.isDigit = true) (e : Int) :
    AvoidsF (layout.scientific digits e) := by
  have hhead := avoidsF_of_isDigit hdigits
  -- the point stands behind the first digit if there is another one
  match digits with
  | [] => exact avoidsF_cons.2 (by decide)
  | [_] => exact avoidsF_cons.2 (avoidsF_cons.1 hhead)
  | _ :: _ :: _ => exact avoidsF_cons.2 (avoidsF_cons.1 hhead)

theorem avoidsF_render (x : Double) : AvoidsF x.render := by
  rw [render]
  cases x with
  | nan => exact avoidsF_cons.2 (by decide)
  | infinite negative => cases negative <;> exact avoidsF_cons.2 (by decide)
  | finite negative m e =>
    rw [Layout.write]
    split
    · exact avoidsF_cons.2 (by decide)
    · split
      · exact avoidsF_cons.2 (by decide)
      · dsimp only
        split
        · exact avoidsF_positional isDigit_toDigits _
        · exact avoidsF_scientific isDigit_toDigits _

end Double

theorem Moment.isDigit_padded (width n : Nat) : ∀ c ∈ padded width n, c.isDigit = true := by
  intro c hc
  rcases List.mem_append.1 hc with hc | hc
  · rw [List.eq_of_mem_replicate hc]
    rfl
  · exact isDigit_toDigits c hc

/-- A date starts with its year. -/
theorem Moment.avoidsF_write (m : Moment) : AvoidsF m.write := by
  have hdash (t : Text) : AvoidsF ('-' :: t) := avoidsF_cons.2 (by decide)
  rw [write]
  refine (((avoidsF_of_isDigit (isDigit_padded 4 m.year)).append fun _ => hdash _).append
    fun _ => hdash _).append fun h => ?_
  simp at h

namespace Value

theorem avoidsF_renderTuple (ts : List Text) : AvoidsF (renderTuple ts) := by
  match ts with
  | [] => exact avoidsF_cons.2 (by decide)
  | [_] => exact avoidsF_cons.2 (by decide)
  | _ :: _ :: _ => exact avoidsF_cons.2 (by decide)

theorem avoidsF_renderSet (ts : List Text) : AvoidsF (renderSet ts) := by
  cases ts <;> exact avoidsF_cons.2 (by decide)

/-- Whatever has parts is written between brackets. -/
theorem avoidsF_write_of_parts {v : Value} (hv : ∀ s, v ≠ .scalar s) : AvoidsF v.write := by
  cases v with
  | scalar s => exact absurd rfl (hv s)
  | list items => exact avoidsF_cons.2 (by decide)
  | tuple items => exact avoidsF_renderTuple _
  | set items => exact avoidsF_renderSet _
  | map entries => exact avoidsF_cons.2 (by decide)
  | again shape => cases shape <;> exact avoidsF_cons.2 (by decide)
  | tooDeep => exact avoidsF_nil

end Value

/-! ## Policies -/

namespace ReadPolicy

variable {v : Value} {p : ReadPolicy}

theorem isFolded_word (p : ReadPolicy) : Text.IsFolded Char.toLower p.word := by
  cases p <;> decide

/-- The words have no `k`, so there is nothing but their letters to spell them with. -/
theorem spells_word_iff {s : Text} : Spells Text.lowerOthers p.word s ↔ Spells [] p.word s := by
  have hk : ¬ ['k'] <:+: p.word := by cases p <;> decide
  constructor
  · intro h
    refine h.mono fun e he hpart => ?_
    rw [List.mem_singleton.1 he] at hpart
    exact absurd hpart hk
  · intro h
    exact h.mono nofun

theorem ofWord?_eq_some_iff {t : Text} : ofWord? t = some p ↔ t = p.word := by
  constructor
  · intro h
    exact (beq_iff_eq.1 (List.find?_some (p := fun p : ReadPolicy => p.word == t) h)).symm
  · rintro rfl
    exact ofWord?_word p

theorem parse_eq_ok_iff_spells : parse v = .ok p ↔ Spells [] p.word v.write := by
  rw [parse, ← spells_word_iff, ← Text.lower_eq_iff (isFolded_word p), ← ofWord?_eq_some_iff]
  cases ofWord? (Text.lower v.write) with
  | none =>
    constructor
    · intro h
      cases h
    · intro h
      cases h
  | some found => rw [Except.ok.injEq, Option.some_inj]

/-- A word starts with an `f` of either case. -/
theorem not_spells_of_avoidsF {s : Text} (hs : AvoidsF s) : ¬ Spells [] p.word s := by
  obtain ⟨rest, hword⟩ : ∃ rest, p.word = 'f' :: rest := by cases p <;> exact ⟨_, rfl⟩
  rw [hword]
  intro h
  rcases h.head with hlower | hupper
  · exact (hs _ hlower).1 rfl
  · exact (hs _ hupper).2 rfl

/-- No value but a text is written like a word. -/
theorem isText_of_parse (h : parse v = .ok p) : ∃ s, v = .text s := by
  have hspells := parse_eq_ok_iff_spells.1 h
  cases v with
  | scalar x =>
    cases x with
    | text s => exact ⟨s, rfl⟩
    | null => cases h
    -- `False` has the first letter of a word, but none is written like it
    | bool b => cases b <;> cases h
    | int n => exact absurd hspells (not_spells_of_avoidsF (Numeral.avoidsF_decimal n))
    | float x => exact absurd hspells (not_spells_of_avoidsF (Double.avoidsF_render x))
    | bytes bs => exact absurd hspells (not_spells_of_avoidsF (avoidsF_cons.2 (by decide)))
    | moment m => exact absurd hspells (not_spells_of_avoidsF m.avoidsF_write)
  | _ =>
    exact absurd hspells (not_spells_of_avoidsF (Value.avoidsF_write_of_parts fun _ => nofun))

/-- A word is known by its spellings, and nothing but a text is one. -/
theorem parse_eq_ok_iff : parse v = .ok p ↔ ∃ s, v = .text s ∧ Spells [] p.word s := by
  constructor
  · intro h
    obtain ⟨s, rfl⟩ := isText_of_parse h
    exact ⟨s, rfl, parse_eq_ok_iff_spells.1 h⟩
  · rintro ⟨s, rfl, hs⟩
    exact parse_eq_ok_iff_spells.2 hs

/-- Every other value is no word. -/
theorem parse_eq_error_iff :
    parse v = .error (.unknownPolicy v) ↔ ∀ s p, v = .text s → ¬ Spells [] (word p) s := by
  constructor
  · rintro h s p rfl hs
    rw [parse_eq_ok_iff.2 ⟨s, rfl, hs⟩] at h
    cases h
  · intro h
    cases hv : parse v with
    | ok p =>
      obtain ⟨s, rfl, hs⟩ := parse_eq_ok_iff.1 hv
      exact absurd hs (h s p rfl)
    | error fault =>
      rw [parse] at hv
      split at hv <;> cases hv
      rfl

/-- A text that is no word is a fault in the settings. -/
theorem result_ofCheck_parse_eq_error_iff {s : Text} :
    (Run.ofCheck (parse (.text s))).result = .error (.config (.unknownPolicy (.text s))) ↔
      ∀ p, ¬ Spells [] (word p) s := by
  constructor
  · intro h p hs
    rw [parse_eq_ok_iff.2 ⟨s, rfl, hs⟩] at h
    cases h
  · intro h
    have hs : parse (.text s) = .error (.unknownPolicy (.text s)) := by
      rw [parse_eq_error_iff]
      rintro _ p ⟨⟩
      exact h p
    rw [hs]
    rfl

end ReadPolicy

/-! ## Capabilities -/

namespace Mask

variable {s : Text} {m : Mask}

/-- The characters beside its letters that a name of a capability can be spelled with. -/
def others : List (Text × Char) :=
  [(['S'], '\u017f'), (['S', 'T'], '\ufb05'), (['S', 'T'], '\ufb06')]

theorem isFolded_of_mem : ∀ e ∈ names, Text.IsFolded Char.toUpper e.1 := by decide

/-- Of the characters that raise to ASCII, these are the ones whose piece a name has. -/
theorem spells_name_iff : ∀ e ∈ names, Spells Text.upperOthers e.1 s ↔ Spells others e.1 s := by
  have hparts : ∀ e ∈ names, ∀ o ∈ Text.upperOthers, o.1 <:+: e.1 → o ∈ others := by
    decide
  have hsub : ∀ o ∈ others, o ∈ Text.upperOthers := by decide
  intro e he
  exact ⟨fun h => h.mono (hparts e he), fun h => h.mono fun o ho _ => hsub o ho⟩

/-- A capability is known by the spellings of its name. -/
theorem flag?_eq_some_iff :
    flag? s = some m ↔ ∃ name, (name, m) ∈ names ∧ Spells others name s := by
  rw [flag?, lookup_eq_some_iff_mem (l := names) nodup_flagNames]
  constructor
  · intro h
    exact ⟨Text.upper s, h,
      (spells_name_iff _ h).1 ((Text.upper_eq_iff (isFolded_of_mem _ h)).1 rfl)⟩
  · rintro ⟨name, hname, hs⟩
    rwa [(Text.upper_eq_iff (isFolded_of_mem _ hname)).2 ((spells_name_iff _ hname).2 hs)]

/-- A text spells the name of a capability. -/
def IsSpelled (s : Text) : Prop := ∃ e ∈ names, Spells others e.1 s

theorem isSpelled_iff : IsSpelled s ↔ (flag? s).isSome = true := by
  rw [Option.isSome_iff_exists]
  constructor
  · rintro ⟨e, he, hs⟩
    exact ⟨e.2, flag?_eq_some_iff.2 ⟨e.1, he, hs⟩⟩
  · rintro ⟨m, hm⟩
    obtain ⟨name, hname, hs⟩ := flag?_eq_some_iff.1 hm
    exact ⟨_, hname, hs⟩

end Mask

namespace Listing

variable {s : Text} {m : Mask}

theorem result_flag (s : Text) :
    (flag (.text s)).result =
      match Mask.flag? s with
      | some m => .ok m
      | none => .error (.config (.unknownFlag (.text s))) := by
  rw [flag]
  show (match Mask.flag? s with | some m => pure m | none => _ : Run Mask).result = _
  cases Mask.flag? s <;> rfl

/-- A mask that is one name is known by the spellings of the name. -/
theorem result_mask_eq_ok_iff :
    (mask (.text s)).result = .ok m ↔
      ∃ name, (name, m) ∈ Mask.names ∧ Spells Mask.others name s := by
  rw [mask, result_flag, ← Mask.flag?_eq_some_iff]
  cases Mask.flag? s with
  | none => exact ⟨nofun, nofun⟩
  | some found => rw [Except.ok.injEq, Option.some_inj]

theorem result_mask_eq_error_iff :
    (mask (.text s)).result = .error (.config (.unknownFlag (.text s))) ↔ ¬ Mask.IsSpelled s := by
  rw [mask, result_flag, Mask.isSpelled_iff]
  cases Mask.flag? s with
  | none => exact ⟨fun _ => nofun, fun _ => rfl⟩
  | some found => exact ⟨nofun, fun h => absurd rfl h⟩

/-- Names in turn: they make a mask, or the first one that is not known is told. -/
theorem result_flags (ss : List Text) :
    ((∃ m, (flags (ss.map .text)).result = .ok m) ∧ ∀ s ∈ ss, Mask.IsSpelled s) ∨
      ∃ before s after, ss = before ++ s :: after ∧ (∀ t ∈ before, Mask.IsSpelled t) ∧
        ¬ Mask.IsSpelled s ∧
        (flags (ss.map .text)).result = .error (.config (.unknownFlag (.text s))) := by
  induction ss with
  | nil => exact .inl ⟨⟨0, rfl⟩, fun _ hs => absurd hs List.not_mem_nil⟩
  | cons s ss ih =>
    have hflag := result_flag s
    rw [List.map_cons, flags]
    cases hs : Mask.flag? s with
    | none =>
      rw [hs] at hflag
      have hunknown : ¬ Mask.IsSpelled s := by
        rw [Mask.isSpelled_iff, hs]
        exact Bool.false_ne_true
      exact .inr ⟨[], s, ss, rfl, fun _ ht => absurd ht List.not_mem_nil, hunknown,
        Run.result_bind_of_error hflag _⟩
    | some m =>
      rw [hs] at hflag
      have hspelled : Mask.IsSpelled s := Mask.isSpelled_iff.2 (by rw [hs]; rfl)
      rw [Run.result_bind_of_ok hflag]
      rcases ih with ⟨⟨ms, hms⟩, hall⟩ | ⟨before, t, after, rfl, hbefore, ht, hfails⟩
      · refine .inl ⟨⟨Mask.union m ms, ?_⟩, List.forall_mem_cons.2 ⟨hspelled, hall⟩⟩
        rw [Run.result_bind_of_ok hms]
        rfl
      · exact .inr ⟨s :: before, t, after, rfl, List.forall_mem_cons.2 ⟨hspelled, hbefore⟩, ht,
          Run.result_bind_of_error hfails _⟩

end Listing

/-! ## All vocabularies -/

/-- Over all texts: the names of selections may be written in either ASCII case, a `k` also as the
    kelvin sign; the words of policies in either ASCII case, and no value but a text stands for
    one; the names of capabilities in either ASCII case, an `S` also as the long s, and `ST` also
    as one of its two ligatures.  Everything else is unknown, and told as such; of several names of
    capabilities, the first one that is unknown is told. -/
theorem words_spelled :
    (∀ s selection, (Selection.resolve (some s)).result = .ok selection ↔
      ∃ name, (name, selection) ∈ Selection.named ∧ Spells [(['k'], '\u212a')] name s) ∧
    (∀ s, (Selection.resolve (some s)).result = .error (.unknownExpression s) ↔
      ∀ e ∈ Selection.named, ¬ Spells [(['k'], '\u212a')] e.1 s) ∧
    (∀ v p, ReadPolicy.parse v = .ok p ↔ ∃ s, v = .text s ∧ Spells [] p.word s) ∧
    (∀ v, ReadPolicy.parse v = .error (.unknownPolicy v) ↔
      ∀ s p, v = .text s → ¬ Spells [] (ReadPolicy.word p) s) ∧
    (∀ s, (Run.ofCheck (ReadPolicy.parse (.text s))).result =
        .error (.config (.unknownPolicy (.text s))) ↔ ∀ p, ¬ Spells [] (ReadPolicy.word p) s) ∧
    (∀ s m, (Listing.mask (.text s)).result = .ok m ↔ ∃ name, (name, m) ∈ Mask.names ∧
      Spells [(['S'], '\u017f'), (['S', 'T'], '\ufb05'), (['S', 'T'], '\ufb06')] name s) ∧
    (∀ s, (Listing.mask (.text s)).result = .error (.config (.unknownFlag (.text s))) ↔
      ¬ Mask.IsSpelled s) ∧
    (∀ ss : List Text,
      ((∃ m, (Listing.mask (.list (ss.map .text))).result = .ok m) ∧ ∀ s ∈ ss, Mask.IsSpelled s) ∨
      ∃ before s after, ss = before ++ s :: after ∧ (∀ t ∈ before, Mask.IsSpelled t) ∧
        ¬ Mask.IsSpelled s ∧ (Listing.mask (.list (ss.map .text))).result =
          .error (.config (.unknownFlag (.text s)))) := by
  refine ⟨fun s selection => Selection.result_resolve_eq_ok_iff,
    fun s => Selection.result_resolve_eq_error_iff, fun v p => ReadPolicy.parse_eq_ok_iff,
    fun v => ReadPolicy.parse_eq_error_iff,
    fun s => ReadPolicy.result_ofCheck_parse_eq_error_iff, fun s m => Listing.result_mask_eq_ok_iff,
    fun s => Listing.result_mask_eq_error_iff, fun ss => ?_⟩
  have hmask : Listing.mask (.list (ss.map .text)) = Listing.flags (ss.map .text) := rfl
  rw [hmask]
  exact Listing.result_flags ss

end Tracewright
