/-
  Tracewright.Proofs.Fragment.InPlace

  A buffer that is filled in place, one call after the other.  A call that
  fails leaves the buffer as it is.

    * `inPlace`               — a step on a buffer as a call.
    * `inTurn_replaceFirst`, `inTurn_expand`
                              — calls in turn, each of which fills one place.
    * `replaceAllInPlace_cuts` — all places at once: the pieces of the text with
                              something else between them.
    * `repeatBlockInPlace_expands`
                              — copies of a block in one place, or one copy in
                              each of as many places.
-/
import Tracewright.Fragment.Buffer
import Tracewright.Proofs.Fragment.Layout
import Tracewright.Proofs.Number.Numeral
import Tracewright.Proofs.Run
import Tracewright.Proofs.Text.Count
import Tracewright.Proofs.Text.Pieces

namespace Tracewright.Buffer

open Text (copies IsCut IsPassed)

variable {b b' : Buffer} {t r m s d pre block before after : Text} {ps : List Text} {n : Nat}

/-! ## Calls -/

/-- A step on a buffer as a call: one that fails leaves the buffer as it is. -/
def inPlace (step : Buffer → Run Buffer) : Action Buffer Unit := fun b =>
  match step b with
  | ⟨log, .ok b'⟩ => (⟨log, .ok ()⟩, b')
  | ⟨log, .error e⟩ => (⟨log, .error e⟩, b)

def replaceFirstInPlace (t r : Text) : Action Buffer Unit := inPlace (·.replaceFirst t r)

/-- Fills all places of a word, and tells how many there were. -/
def replaceAllInPlace (t r : Text) : Action Buffer Nat := fun b =>
  (pure (Text.countWord t b.text), b.replaceAll t r)

def repeatBlockInPlace (m block : Text) (count : Value) : Action Buffer Unit :=
  inPlace (·.repeatBlockBy m block count)

theorem inPlace_of_pure {step : Buffer → Run Buffer} (h : step b = pure b') :
    inPlace step b = (pure (), b') := by
  rw [inPlace, h]
  rfl

theorem inPlace_of_error {step : Buffer → Run Buffer} {e : Failure}
    (h : (step b).result = .error e) :
    (inPlace step b).1.result = .error e ∧ (inPlace step b).2 = b := by
  rw [inPlace]
  rcases hstep : step b with ⟨log, result⟩
  rw [hstep] at h
  cases h
  exact ⟨rfl, rfl⟩

theorem inPlace_of_fail {step : Buffer → Run Buffer} {e : Failure} (h : step b = Run.fail e) :
    inPlace step b = (Run.fail e, b) := by
  rw [inPlace, h]
  rfl

theorem result_missing {α : Type} (b : Buffer) (word : Text) :
    (b.missing word : Run α).result = .error (.markerMissing word) := rfl

/-! ## One place -/

theorem replaceFirstInPlace_of_cut? (h : Text.cut? t b.text = some (before, after)) (r : Text) :
    replaceFirstInPlace t r b = (pure (), { b with text := before ++ r ++ after }) := by
  refine inPlace_of_pure ?_
  rw [replaceFirst, Text.replaceFirst?, h]
  rfl

theorem replaceFirstInPlace_of_missing (h : ¬ t <:+: b.text) (r : Text) :
    (replaceFirstInPlace t r b).1.result = .error (.markerMissing t) ∧
      (replaceFirstInPlace t r b).2 = b := by
  refine inPlace_of_error ?_
  rw [replaceFirst, Text.replaceFirst?, Text.cut?_eq_none_iff.2 h]
  exact result_missing b t

/-! ## All places -/

/-- With a text that has no character of the word, the places are filled one by one: each call
    finds the next one, since the search passes over what the calls before it have filled. -/
theorem inTurn_replaceFirst (ht : t ≠ []) (hr : r ≠ []) (hapart : ∀ c ∈ r, c ∉ t)
    (hcut : IsCut t s ps) (hn : ps.length = n + 1) (hd : IsPassed t d) (name : Text) :
    inTurn (List.replicate n (replaceFirstInPlace t r)) ⟨d ++ s, name⟩ =
      (pure (List.replicate n ()), ⟨d ++ r.intercalate ps, name⟩) := by
  induction n generalizing ps s d with
  | zero =>
    obtain ⟨p, rfl⟩ := List.length_eq_one_iff.1 hn
    obtain ⟨rfl, -⟩ := Text.isCut_singleton_iff.1 hcut
    rw [List.intercalate_singleton]
    rfl
  | succ n ih =>
    obtain ⟨p, ps, rfl⟩ := List.exists_cons_of_length_eq_add_one hn
    have hps : ps ≠ [] := by
      rintro rfl
      cases hn
    obtain ⟨rest, hfirst, hrest⟩ := (Text.isCut_cons_iff hps).1 hcut
    -- the place is found in the whole buffer as it is in the text behind the filled part
    have hplace : Text.cut? t (d ++ s) = some (d ++ p, rest) := by
      rw [hd s, hfirst]
      rfl
    have hpassed : IsPassed t (d ++ (p ++ r)) :=
      hd.append (Text.isPassed_append_of_apart ht hr hapart (Text.not_infix_of_cut? ht hfirst))
    have hnext := ih hrest (by rw [List.length_cons] at hn; omega) hpassed
    have hcall := replaceFirstInPlace_of_cut? (b := ⟨d ++ s, name⟩) hplace r
    rw [List.replicate_succ, List.replicate_succ, List.intercalate_cons_of_ne_nil hps]
    refine Action.inTurn_cons_of_pure hcall ?_
    simp only [List.append_assoc] at hnext ⊢
    exact hnext

/-- What numbers are written as has no character of the words that they are put in for. -/
theorem decimal_apart {marker : Marker} (hm : marker ∈ [Marker.number, .tracedPid, .ownPid])
    (k : Int) : Numeral.decimal k ≠ [] ∧ ∀ c ∈ Numeral.decimal k, c ∉ marker.word := by
  have hcanonical := Numeral.isCanonical_toDigits k.natAbs
  rw [Numeral.decimal, Numeral.signed]
  split_ifs
  · refine ⟨List.cons_ne_nil _ _, fun c hc => marker.not_mem_word_of_numeral hm ?_⟩
    rcases List.mem_cons.1 hc with hsign | hc
    · exact .inr hsign
    · exact .inl (hcanonical.isDigit c hc)
  · exact ⟨hcanonical.ne_nil, fun c hc =>
      marker.not_mem_word_of_numeral hm (.inl (hcanonical.isDigit c hc))⟩

/-- Filling all places of a word: the text has one way to be cut at the places that are found from
    left to right, and what is put in them stands between the same pieces.  If that has no
    character of the word, as a numeral has none of the words it is put in for, nothing is left of
    the word, and as many calls that fill one place each do the same; one call more finds none. -/
theorem replaceAllInPlace_cuts (ht : t ≠ []) (b : Buffer) (r : Text) :
    (∃ pieces n b', pieces.length = n + 1 ∧
      IsCut t b.text pieces ∧ (∀ ps, IsCut t b.text ps → ps = pieces) ∧
      b' = { b with text := r.intercalate pieces } ∧
      replaceAllInPlace t r b = (pure n, b') ∧
      (b'.text.length : Int) = b.text.length + n * ((r.length : Int) - t.length) ∧
      (n = 0 → b'.text = b.text) ∧ (r = t → b'.text = b.text) ∧
      (r ≠ [] → (∀ c ∈ r, c ∉ t) →
        ¬ t <:+: b'.text ∧
        inTurn (List.replicate n (replaceFirstInPlace t r)) b =
          (pure (List.replicate n ()), b') ∧
        (replaceFirstInPlace t r b').1.result = .error (.markerMissing t) ∧
        (replaceFirstInPlace t r b').2 = b')) ∧
    ∀ marker ∈ [Marker.number, .tracedPid, .ownPid], ∀ k : Int,
      Numeral.decimal k ≠ [] ∧ ∀ c ∈ Numeral.decimal k, c ∉ marker.word := by
  refine ⟨?_, fun marker hm => decimal_apart hm⟩
  have hcut : IsCut t b.text (Text.split t b.text) := Text.isCut_split ht b.text
  have hcount : (Text.split t b.text).length = Text.countWord t b.text + 1 := by
    have hpos := List.length_pos_iff.2 hcut.ne_nil
    rw [Text.countWord]
    omega
  refine ⟨Text.split t b.text, Text.countWord t b.text, b.replaceAll t r, hcount, hcut,
    fun _ => IsCut.eq_split ht, rfl, rfl, Text.length_replaceAll ht r b.text, fun hnone => ?_, ?_,
    fun hr hapart => ?_⟩
  · exact Text.replaceAll_of_not_hasWord ht r ((Text.countWord_eq_zero_iff ht b.text).1 hnone)
  · rintro rfl
    exact hcut.joins
  -- without its characters, what is put in makes no new place, and the calls go on behind it
  · have hleft : ¬ t <:+: (b.replaceAll t r).text :=
      (Text.hasWord_eq_false_iff _ _).1 (Text.hasWord_replaceAll_of_apart ht hr hapart b.text)
    have hcalls := inTurn_replaceFirst ht hr hapart hcut hcount Text.isPassed_nil b.name
    exact ⟨hleft, hcalls, replaceFirstInPlace_of_missing hleft r⟩

/-- Places that overlap: the one that is found first counts, and the search goes on behind it. -/
theorem replaceAllInPlace_cuts_overlapping :
    let b : Buffer := { text := "ababab aba" }
    ("aba" : Text) ≠ [] ∧ ("7" : Text) ≠ [] ∧ (∀ c ∈ ("7" : Text), c ∉ ("aba" : Text)) ∧
      ∃ n b', replaceAllInPlace "aba" "7" b = (pure n, b') ∧ n = 2 ∧ b'.text = "7bab 7".toList ∧
        inTurn (List.replicate n (replaceFirstInPlace "aba" "7")) b =
          (pure (List.replicate n ()), b') ∧
        (replaceFirstInPlace "aba" "7" b').1.result = .error (.markerMissing "aba") := by
  intro b
  have ht : ("aba" : Text) ≠ [] := by decide
  have hr : ("7" : Text) ≠ [] := by decide
  have hapart : ∀ c ∈ ("7" : Text), c ∉ ("aba" : Text) := List.forall_mem_singleton.2 (by decide)
  obtain ⟨⟨pieces, n, b', -, -, -, -, hall, -, -, -, hcalls⟩, -⟩ := replaceAllInPlace_cuts ht b "7"
  obtain ⟨-, hturn, hmissing, -⟩ := hcalls hr hapart
  have hcount : replaceAllInPlace "aba" "7" b = (pure 2, { text := "7bab 7" }) := rfl
  have hsame := hall.symm.trans hcount
  have hn : n = 2 := Except.ok.inj (congrArg (fun outcome => outcome.1.result) hsame)
  have hb' : b' = { text := "7bab 7" } := congrArg Prod.snd hsame
  exact ⟨ht, hr, hapart, n, b', hall, hn, by rw [hb'], hturn, hmissing⟩

/-! ## Copies of a block -/

/-- There is room for the copies: neither is their number too large, nor their length. -/
def HasRoom (n : Nat) (block : Text) : Prop :=
  n < sizeBound ∧ n * block.length < memoryBound

/-- What making copies fails with where there is no room for them. -/
def roomFault (n : Nat) (block : Text) : Failure :=
  if sizeBound ≤ n ∨ sizeBound ≤ n * block.length then .tooLarge else .outOfMemory

theorem hasRoom_zero (block : Text) : HasRoom 0 block := by
  rw [HasRoom, Nat.zero_mul]
  decide

theorem repeatBlock_of_hasRoom (h : HasRoom n block) (b : Buffer) (m : Text) :
    b.repeatBlock m block n =
      match Text.cut? m b.text with
      | some (before, after) => pure { b with text := before ++ copies n block ++ after }
      | none => b.missing m := by
  -- a length that fits in memory is not too large either
  have hbounds : memoryBound ≤ sizeBound := by decide
  have hcount : ¬ (sizeBound ≤ n ∨ sizeBound ≤ n * block.length) := by
    obtain ⟨hn, hlength⟩ := h
    omega
  have hlength : ¬ memoryBound ≤ n * block.length := Nat.not_le.2 h.2
  rw [repeatBlock, if_neg (by omega), Int.toNat_natCast, if_neg hcount]
  exact if_neg hlength

theorem repeatBlock_of_not_hasRoom (h : ¬ HasRoom n block) (b : Buffer) (m : Text) :
    b.repeatBlock m block n = Run.fail (roomFault n block) := by
  rw [HasRoom, not_and_or, Nat.not_lt, Nat.not_lt] at h
  rw [repeatBlock, if_neg (by omega), Int.toNat_natCast, roomFault]
  split_ifs with hlarge hlong
  · rfl
  · rfl
  · omega

theorem repeatBlockBy_of_integer? {count : Scalar} {k : Int} (h : count.integer? = some k)
    (b : Buffer) (m block : Text) :
    b.repeatBlockBy m block (.scalar count) = b.repeatBlock m block k := by
  cases count with
  | int k' => cases h; rfl
  | bool one => cases h; rfl
  | _ => cases h

/-- A number below nought. -/
def IsNegative : Scalar → Prop
  | .int k => k < 0
  | .float x => x.lessThanNat 0 = true
  | _ => False

theorem repeatBlockBy_of_isNegative {count : Scalar} (h : IsNegative count) (b : Buffer)
    (m block : Text) :
    b.repeatBlockBy m block (.scalar count) =
      Run.fail (.value (.negativeRepeat (.scalar count))) := by
  cases count with
  | int k => exact if_pos h
  | float x => exact if_pos h
  | _ => exact h.elim

/-- A failure to show a number that is out of range is a value out of range as well. -/
theorem fail_negativeRepeat (count : Scalar) : ∃ fault : ValueFault,
    (Run.fail (.value (.negativeRepeat (.scalar count))) : Run Unit) =
      ⟨[], .error (.value fault)⟩ := by
  rw [Run.fail]
  cases count with
  | int n =>
    have htold := Failure.told_of_obstacle?_eq (e := .value (.negativeRepeat (.int n))) (n := n) rfl
    rw [htold]
    split_ifs <;> exact ⟨_, rfl⟩
  | _ => exact ⟨_, rfl⟩

/-- As many words in a row are filled one by one: what stands before the next one has no place of
    the word, and neither does one start in it. -/
theorem inTurn_expand (hm : m ≠ []) (hself : Text.Bars m m) (hpre : ¬ m <:+: pre ++ copies n block)
    (post name : Text) :
    inTurn (List.replicate n (replaceFirstInPlace m block)) ⟨pre ++ copies n m ++ post, name⟩ =
      (pure (List.replicate n ()), ⟨pre ++ copies n block ++ post, name⟩) := by
  -- after a step, what has been put in stands before the place of the next one
  induction n generalizing pre with
  | zero =>
    rw [Text.copies_zero, Text.copies_zero]
    rfl
  | succ n ih =>
    rw [Text.copies_succ, ← List.append_assoc] at hpre
    have hfirst : ¬ m <:+: pre := fun h =>
      hpre (h.trans (List.append_assoc _ _ _ ▸ (List.prefix_append _ _).isInfix))
    have hplace : Text.cut? m (pre ++ copies (n + 1) m ++ post) =
        some (pre, copies n m ++ post) := by
      rw [Text.copies_succ, List.append_assoc, List.append_assoc]
      exact Text.cut?_append_word hm hself hfirst _
    have hcall := replaceFirstInPlace_of_cut? (b := ⟨pre ++ copies (n + 1) m ++ post, name⟩)
      hplace block
    have hnext := ih hpre
    rw [List.replicate_succ, List.replicate_succ]
    refine Action.inTurn_cons_of_pure hcall ?_
    rw [Text.copies_succ n block]
    simp only [List.append_assoc] at hnext ⊢
    exact hnext

/-- Copies of a block in the place of a marker, where there is room for them, are what one block
    in each of as many markers comes to.  A negative number of copies is refused first of all, then
    one for which there is no room, and only then a buffer without the marker. -/
theorem repeatBlockInPlace_expands :
    (∀ m pre post block name : Text, ∀ n : Nat, m ≠ [] → m.IsUnbordered →
      ¬ m <:+: pre ++ copies n block →
      (HasRoom n block → repeatBlockInPlace m block (.int n) ⟨pre ++ m ++ post, name⟩ =
        (pure (), ⟨pre ++ copies n block ++ post, name⟩)) ∧
      inTurn (List.replicate n (replaceFirstInPlace m block)) ⟨pre ++ copies n m ++ post, name⟩ =
        (pure (List.replicate n ()), ⟨pre ++ copies n block ++ post, name⟩) ∧
      repeatBlockInPlace m block (.int 0) ⟨pre ++ m ++ post, name⟩ =
        (pure (), ⟨pre ++ post, name⟩)) ∧
    (∀ marker : Marker, marker.word ≠ [] ∧ marker.word.IsUnbordered) ∧
    ∀ (b : Buffer) (m block : Text) (count : Scalar),
      (IsNegative count → ∃ fault,
        repeatBlockInPlace m block (.scalar count) b = (⟨[], .error (.value fault)⟩, b)) ∧
      ∀ n : Nat, count.integer? = some (n : Int) →
        (¬ HasRoom n block →
          repeatBlockInPlace m block (.scalar count) b = (Run.fail (roomFault n block), b)) ∧
        (HasRoom n block → ¬ m <:+: b.text →
          (repeatBlockInPlace m block (.scalar count) b).1.result = .error (.markerMissing m) ∧
          (repeatBlockInPlace m block (.scalar count) b).2 = b) := by
  refine ⟨?_, ?_, ?_⟩
  -- a marker in its place
  · intro m pre post block name n hm hself hpre
    have hbars : Text.Bars m m := Text.isUnbordered_iff.1 hself
    have hfirst : ¬ m <:+: pre := fun h => hpre (h.trans (List.prefix_append _ _).isInfix)
    have hplace : Text.cut? m (pre ++ m ++ post) = some (pre, post) := by
      rw [List.append_assoc]
      exact Text.cut?_append_word hm hbars hfirst post
    have hrepeat : ∀ k, HasRoom k block →
        repeatBlockInPlace m block (.int k) ⟨pre ++ m ++ post, name⟩ =
          (pure (), ⟨pre ++ copies k block ++ post, name⟩) := by
      intro k hroom
      refine inPlace_of_pure ?_
      rw [repeatBlockBy_of_integer? rfl, repeatBlock_of_hasRoom hroom, hplace]
    refine ⟨hrepeat n, inTurn_expand hm hbars hpre post name, ?_⟩
    -- no copies are nothing, so the marker is all that goes
    have hnone := hrepeat 0 (hasRoom_zero block)
    rw [Text.copies_zero, List.append_nil] at hnone
    exact hnone
  · exact fun marker => ⟨marker.word_ne_nil, Text.isUnbordered_iff.2 marker.bars_word⟩
  -- any buffer: the number is looked at first, then the copies are made, then the marker is found
  · intro b m block count
    refine ⟨fun hnegative => ?_, fun n hn => ⟨fun hroom => ?_, fun hroom hword => ?_⟩⟩
    · have hcall : repeatBlockInPlace m block (.scalar count) b =
          (Run.fail (.value (.negativeRepeat (.scalar count))), b) :=
        inPlace_of_fail (repeatBlockBy_of_isNegative hnegative b m block)
      obtain ⟨fault, hfault⟩ := fail_negativeRepeat count
      rw [hfault] at hcall
      exact ⟨fault, hcall⟩
    · refine inPlace_of_fail ?_
      rw [repeatBlockBy_of_integer? hn, repeatBlock_of_not_hasRoom hroom]
    · refine inPlace_of_error ?_
      rw [repeatBlockBy_of_integer? hn, repeatBlock_of_hasRoom hroom,
        Text.cut?_eq_none_iff.2 hword]
      exact result_missing b m

/-- The end of a block and what follows it make a marker of their own, which is not filled; a
    count below nought and one that is a truth value, where there is no marker. -/
theorem repeatBlockInPlace_expands_beside :
    let m : Text := (Marker.slot 0).word
    let call := repeatBlockInPlace m "ST"
    m ≠ [] ∧ m.IsUnbordered ∧ ¬ m <:+: ("S" : Text) ++ copies 2 "ST" ∧ HasRoom 2 "ST" ∧
      call (.int 2) { text := ("S" : Text) ++ m ++ ("R1" : Text) } =
        (pure (), { text := ("S" : Text) ++ copies 2 "ST" ++ ("R1" : Text) }) ∧
      ("S" : Text) ++ copies 2 "ST" ++ ("R1" : Text) = "SSTSTR1".toList ∧
      inTurn (List.replicate 2 (replaceFirstInPlace m "ST"))
          { text := ("S" : Text) ++ copies 2 m ++ ("R1" : Text) } =
        (pure [(), ()], { text := ("S" : Text) ++ copies 2 "ST" ++ ("R1" : Text) }) ∧
      IsNegative (.int (-1)) ∧
      (∃ fault, call (.int (-1)) { text := "S" } = (⟨[], .error (.value fault)⟩, { text := "S" })) ∧
      (Scalar.bool true).integer? = some ((1 : Nat) : Int) ∧ ¬ m <:+: ("S" : Text) ∧
      (call (.bool true) { text := "S" }).1.result = .error (.markerMissing m) := by
  intro m call
  obtain ⟨hexpands, hmarkers, hrefused⟩ := repeatBlockInPlace_expands
  obtain ⟨hm, hself⟩ := hmarkers (.slot 0)
  have hpre : ¬ m <:+: ("S" : Text) ++ copies 2 "ST" :=
    (Text.hasWord_eq_false_iff _ _).1 (by decide)
  have hword : ¬ m <:+: ("S" : Text) := (Text.hasWord_eq_false_iff _ _).1 (by decide)
  have hroom : HasRoom 2 "ST" := by rw [HasRoom]; decide
  have hone : HasRoom 1 "ST" := by rw [HasRoom]; decide
  have hnegative : IsNegative (.int (-1)) := by rw [IsNegative]; decide
  obtain ⟨hrepeat, hturn, -⟩ := hexpands m "S" "R1" "ST" "<memory>" 2 hm hself hpre
  have hmissing := ((hrefused { text := "S" } m "ST" (.bool true)).2 1 rfl).2 hone hword
  exact ⟨hm, hself, hpre, hroom, hrepeat hroom, rfl, hturn, hnegative,
    (hrefused { text := "S" } m "ST" (.int (-1))).1 hnegative, rfl, hword, hmissing.1⟩

/-- Copies of nothing are nothing, but no number of them is made that is too large. -/
theorem repeatBlockInPlace_too_many :
    let m : Text := (Marker.slot 0).word
    let n : Nat := 9223372036854775808
    m ≠ [] ∧ m.IsUnbordered ∧ ¬ m <:+: ([] : Text) ++ copies n [] ∧
      repeatBlockInPlace m [] (.int n) { text := ([] : Text) ++ m ++ ([] : Text) } =
        (Run.fail .tooLarge, { text := m }) ∧
      repeatBlockInPlace m [] (.int n) { text := ([] : Text) ++ m ++ ([] : Text) } ≠
        (pure (), { text := ([] : Text) ++ copies n [] ++ ([] : Text) }) := by
  intro m n
  have hpre : ¬ m <:+: ([] : Text) ++ copies n [] := (Text.hasWord_eq_false_iff _ _).1 rfl
  have hroom : ¬ HasRoom n [] := by rw [HasRoom]; decide
  have hfail : repeatBlockInPlace m [] (.int n) { text := m } =
      (Run.fail .tooLarge, { text := m }) := by
    refine inPlace_of_fail ?_
    rw [repeatBlockBy_of_integer? rfl, repeatBlock_of_not_hasRoom hroom, roomFault]
    rfl
  refine ⟨(Marker.slot 0).word_ne_nil, Text.isUnbordered_iff.2 (Marker.slot 0).bars_word, hpre,
    hfail, fun hexpands => ?_⟩
  have hresult := congrArg (fun outcome => outcome.1.result) (hfail.symm.trans hexpands)
  cases hresult

end Tracewright.Buffer
