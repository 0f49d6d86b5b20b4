/-
  Tracewright.Proofs.Program.Outline

  What a program made from the packaged fragments is, said at once: no
  marker is filled in before another one, and nothing is filled in twice.

    * `Outline.head`     — the head with the shared definitions.
    * `Outline.check`    — the test that singles out processes.
    * `Outline.handler`  — the handler of a system call.
    * `Outline.draft`    — a text of head, handlers and common exit; the
                           reads, the test and the names may still be open.
    * `Outline.program`  — the draft with nothing open.
    * `Outline.hindrance?` — what keeps any program from being finished.

  `hasWord_draft` says which words are left in a draft, `replaceAll_draft`
  and `replaceFirst?_draft` what replacing the test and the reads does to it.
-/
import Mathlib.Tactic.SplitIfs
import Tracewright.Program.Attach
import Tracewright.Proofs.Fragment.Loading

namespace Tracewright.Outline

open Packaged (contents names handlerPlaces placesOf hasForm_contents)

/-! ## The head -/

/-- A value for one marker; the words of the others stay. -/
def only (m : Marker) (r : Text) : Marker → Text := Function.update Marker.word m r

/-- The head with a text in the place of the reads beyond two packets. -/
def headWith (r : Text) : Text :=
  fill (only .definitions (fill (only .openReads r) (contents Index.usual.definitions)))
    (contents Index.usual.head)

/-- The block for each read beyond two packets. -/
def block (m : Mode) : Text := ((Index.usual.block? m.policy).map contents).getD []

/-- The reads beyond two packets. -/
def reads (m : Mode) : Text :=
  if m.usesOverflow then Text.copies (m.packets - 2) (block m) else []

theorem reads_of_usesOverflow {m : Mode} {file : Text} (huses : m.usesOverflow = true)
    (hfile : Index.usual.block? m.policy = some file) :
    reads m = Text.copies (m.packets - 2) (contents file) := by
  rw [reads, if_pos huses, block, hfile, Option.map_some, Option.getD_some]

def head (m : Mode) : Text := headWith (reads m)

/-! ## The test -/

/-- The process that the test is about. -/
def process (m : Mode) (own : Int) : Int := m.pid.elim own fun pid => pid.number

/-- The file of the test. -/
def checkFile (m : Mode) : Text :=
  if m.pid.isSome then Index.usual.pidCheck m.fullFeature.isTrue else Index.usual.pidCheckOwn

/-- The marker of the process in the test. -/
def checkMarker (m : Mode) : Marker := if m.pid.isSome then .tracedPid else .ownPid

/-- The test with the process in its place. -/
def check (m : Mode) (own : Int) : Text :=
  fill (only (checkMarker m) (Numeral.decimal (process m own))) (contents (checkFile m))

/-! ## Handlers -/

/-- The kind of a handler. -/
def kind (d : Descriptor) (m : Mode) : Case :=
  if m.fullFeature.isTrue && forkNames.contains d.name then .fork
  else if m.fullFeature.isTrue && exitNames.contains d.name then .exit
  else .general (min d.strings captureLimit)

/-- The file of a handler. -/
def file (policy : ReadPolicy) : Case → Text
  | .fork => Index.usual.fork
  | .exit => Index.usual.exit
  | .general count => Index.usualHandler count policy

/-- What goes in the places of a handler; a slot that there is none of stays open. -/
def values (d : Descriptor) (name test : Text) : Marker → Text
  | .number => Numeral.decimal d.number
  | .name => name
  -- no handler has a place for a slot that there is none of
  | .slot i => (d.slots[i.val]?).elim (Marker.slot i).word fun slot => Numeral.decimal slot.val
  | .pidCheck => test
  | m => m.word

/-- The handler of a system call under a name. -/
def handler (m : Mode) (test name : Text) (d : Descriptor) : Text :=
  fill (values d name test) (contents (file m.policy (kind d m)))

/-! ## Programs -/

/-- The handler that all calls leave through, if it is asked for. -/
def exit (s : Selection) (test : Text) : Text :=
  if s.tracepoints then fill (only .pidCheck test) (contents Index.usual.tracepoints) else []

/-- A text of a head, a handler for each system call, and the common exit. -/
def draft (m : Mode) (s : Selection) (ds : List Descriptor) (r test : Text)
    (name : Descriptor → Text) : Text :=
  headWith r ++ (ds.map fun d => handler m test (name d) d).flatten ++ exit s test

/-- The program for the system calls selected from a catalog. -/
def program (m : Mode) (own : Int) (s : Selection) (c : Catalog) : Text :=
  head m ++ ((c.select s.mask).map fun d => handler m (check m own) d.name d).flatten
    ++ exit s (check m own)

/-- Why so many copies of a block cannot be made. -/
def copiesFault? (count : Nat) (block : Text) : Option Failure :=
  if Buffer.sizeBound ≤ count ∨ Buffer.sizeBound ≤ count * block.length then some .tooLarge
  else if Buffer.memoryBound ≤ count * block.length then some .outOfMemory
  else none

/-- What keeps any program from being finished, whatever its system calls: the number of the
    process cannot be written, or the reads cannot be made. -/
def hindrance? (m : Mode) (own : Int) : Option Failure :=
  if !Numeral.isWritable (process m own) then some (.value .overlongNumeral)
  else if m.usesOverflow then copiesFault? (m.packets - 2) (block m)
  else none

/-- Without reads beyond two packets only the number of the process counts. -/
theorem hindrance?_of_not_usesOverflow {m : Mode} {own : Int}
    (hprocess : Numeral.isWritable (process m own) = true) (huses : m.usesOverflow = false) :
    hindrance? m own = none := by
  rw [hindrance?, hprocess, huses]
  rfl

/-- With reads beyond two packets it also counts whether they can be made. -/
theorem hindrance?_of_usesOverflow {m : Mode} {own : Int}
    (hprocess : Numeral.isWritable (process m own) = true) (huses : m.usesOverflow = true) :
    hindrance? m own = copiesFault? (m.packets - 2) (block m) := by
  rw [hindrance?, hprocess, Bool.not_true, if_neg Bool.false_ne_true, if_pos huses]

/-- Reads that are too many to be counted cannot be made, whatever their block is. -/
theorem hindrance?_of_tooMany {m : Mode} {own : Int}
    (hprocess : Numeral.isWritable (process m own) = true) (huses : m.usesOverflow = true)
    (hmany : Buffer.sizeBound ≤ m.packets - 2) : hindrance? m own = some .tooLarge := by
  rw [hindrance?_of_usesOverflow hprocess huses, copiesFault?, if_pos (.inl hmany)]

/-! ## Forms -/

section Forms

variable (d : Descriptor) (m : Mode)

/-- The number of slots that have a place in a handler. -/
def slotCount : Nat :=
  match kind d m with
  | .general count => count
  | _ => 0

theorem slotCount_le : slotCount d m ≤ d.slots.length ∧ slotCount d m ≤ captureLimit := by
  rw [slotCount, kind]
  split_ifs
  · exact ⟨Nat.zero_le _, Nat.zero_le _⟩
  · exact ⟨Nat.zero_le _, Nat.zero_le _⟩
  · exact ⟨Nat.min_le_left _ _, Nat.min_le_right _ _⟩

/-- The packaged files with the markers that have a place in each: those that are asked for
    by themselves, the handlers by the number of strings, and the blocks. -/
def usualFiles : List (Text × List Marker) :=
  [(Index.usual.head, [.definitions]), (Index.usual.definitions, [.openReads]),
    (Index.usual.tracepoints, [.pidCheck]), (Index.usual.fork, handlerPlaces 0),
    (Index.usual.exit, handlerPlaces 0), (Index.usual.pidCheck false, [.tracedPid]),
    (Index.usual.pidCheck true, [.tracedPid]), (Index.usual.pidCheckOwn, [.ownPid])]
  ++ (ReadPolicy.all.flatMap fun policy => (List.range (captureLimit + 1)).map fun count =>
    (Index.usualHandler count policy, handlerPlaces count))
  ++ ReadPolicy.all.flatMap fun policy => (Index.usual.block? policy).toList.map fun file =>
    (file, [])

/-- The files are all there, and the markers have these places. -/
theorem mem_names_of_mem_usualFiles : ∀ e ∈ usualFiles, e.1 ∈ names ∧ placesOf e.1 = e.2 := by
  decide

theorem hasForm_of_mem_usualFiles {file : Text} {ms : List Marker} (h : (file, ms) ∈ usualFiles) :
    HasForm (contents file) ms :=
  hasForm_contents (mem_names_of_mem_usualFiles _ h).1 (mem_names_of_mem_usualFiles _ h).2

theorem head_mem_usualFiles : (Index.usual.head, [.definitions]) ∈ usualFiles :=
  List.mem_append_left _ (List.mem_append_left _ (by simp only [List.mem_cons, true_or]))

theorem definitions_mem_usualFiles : (Index.usual.definitions, [.openReads]) ∈ usualFiles :=
  List.mem_append_left _ (List.mem_append_left _ (by simp only [List.mem_cons, true_or, or_true]))

theorem tracepoints_mem_usualFiles : (Index.usual.tracepoints, [.pidCheck]) ∈ usualFiles :=
  List.mem_append_left _ (List.mem_append_left _ (by simp only [List.mem_cons, true_or, or_true]))

theorem checkFile_mem_usualFiles : (checkFile m, [checkMarker m]) ∈ usualFiles := by
  refine List.mem_append_left _ (List.mem_append_left _ ?_)
  rw [checkFile, checkMarker]
  cases m.pid.isSome
  · simp only [List.mem_cons, Bool.false_eq_true, if_false, true_or, or_true]
  · cases m.fullFeature.isTrue <;> simp only [List.mem_cons, if_true, true_or, or_true]

theorem usualHandler_mem_usualFiles {count : Nat} (h : count ≤ captureLimit) (policy : ReadPolicy) :
    (Index.usualHandler count policy, handlerPlaces count) ∈ usualFiles := by
  refine List.mem_append_left _ (List.mem_append_right _ ?_)
  rw [List.mem_flatMap]
  refine ⟨policy, ReadPolicy.mem_all policy, List.mem_map.2 ⟨count, ?_, rfl⟩⟩
  exact List.mem_range.2 (by omega)

theorem block_mem_usualFiles {policy : ReadPolicy} {file : Text}
    (h : Index.usual.block? policy = some file) : (file, []) ∈ usualFiles := by
  refine List.mem_append_right _ (List.mem_flatMap.2 ⟨policy, ReadPolicy.mem_all policy, ?_⟩)
  rw [h]
  exact List.mem_singleton_self _

theorem file_mem_usualFiles :
    (file m.policy (kind d m), handlerPlaces (slotCount d m)) ∈ usualFiles := by
  have hle := (slotCount_le d m).2
  rw [slotCount] at hle ⊢
  cases hk : kind d m with
  | fork =>
    refine List.mem_append_left _ (List.mem_append_left _ ?_)
    simp only [file, List.mem_cons, true_or, or_true]
  | exit =>
    refine List.mem_append_left _ (List.mem_append_left _ ?_)
    simp only [file, List.mem_cons, true_or, or_true]
  | general count =>
    rw [hk] at hle
    exact usualHandler_mem_usualFiles hle m.policy

theorem hasForm_head : HasForm (contents Index.usual.head) [.definitions] :=
  hasForm_of_mem_usualFiles head_mem_usualFiles

theorem hasForm_definitions : HasForm (contents Index.usual.definitions) [.openReads] :=
  hasForm_of_mem_usualFiles definitions_mem_usualFiles

theorem hasForm_tracepoints : HasForm (contents Index.usual.tracepoints) [.pidCheck] :=
  hasForm_of_mem_usualFiles tracepoints_mem_usualFiles

theorem hasForm_check : HasForm (contents (checkFile m)) [checkMarker m] :=
  hasForm_of_mem_usualFiles (checkFile_mem_usualFiles m)

theorem hasForm_handler :
    HasForm (contents (file m.policy (kind d m))) (handlerPlaces (slotCount d m)) :=
  hasForm_of_mem_usualFiles (file_mem_usualFiles d m)

theorem load_of_mem_usualFiles {file : Text} {ms : List Marker} (h : (file, ms) ∈ usualFiles) :
    (Store.packaged.source.load file).result = .ok ⟨contents file, file⟩ :=
  Store.load_packaged (mem_names_of_mem_usualFiles _ h).1

end Forms

/-! ## Words in the parts -/

section Words

variable (w : Marker)

/-- A text without the first characters of words has no words. -/
theorem hasWord_of_not_isInitial {t : Text} (h : ∀ c ∈ t, Layout.isInitial c = false) :
    Text.hasWord w.word t = false := by
  obtain ⟨c, v, hw⟩ := List.exists_cons_of_ne_nil w.word_ne_nil
  rw [Text.hasWord_eq_false_iff, hw]
  -- a word in the text would bring its first character
  intro hpart
  have hc := h c (hpart.subset List.mem_cons_self)
  rw [Layout.isInitial_of_word hw] at hc
  exact Bool.noConfusion hc

theorem hasWord_decimal (n : Int) : Text.hasWord w.word (Numeral.decimal n) = false := by
  have hdigit : ∀ c ∈ Nat.toDigits 10 n.natAbs, Layout.isInitial c = false := by
    intro c hc
    have hdigit := Nat.isDigit_of_mem_toDigits (by omega) (by omega) hc
    have hrange : 48 ≤ c.toNat ∧ c.toNat ≤ 57 := Char.isDigit_iff_toNat.1 hdigit
    rw [Layout.isInitial, List.contains_eq_mem, decide_eq_false_iff_not]
    simp only [List.mem_cons, List.not_mem_nil, or_false]
    omega
  -- the sign and the digits; no word starts with either
  refine hasWord_of_not_isInitial w fun c hc => ?_
  rw [Numeral.decimal, Numeral.signed] at hc
  split_ifs at hc
  · rcases List.mem_cons.1 hc with rfl | hc
    · decide
    · exact hdigit c hc
  · exact hdigit c hc

theorem hasWord_copies_append {x : Text} (hx : HasForm x []) (count : Nat) (s : Text) :
    Text.hasWord w.word (Text.copies count x ++ s) = Text.hasWord w.word s := by
  rw [Text.copies_eq]
  -- a copy is tight, so it brings no word in and lets none reach into the next one
  induction count with
  | zero => rfl
  | succ count ih =>
    have happend := hasWord_fill_append hx.tight w Marker.word
      ((List.replicate count x).flatten ++ s)
    rw [fill_word, hx.places_eq, List.any_nil, Bool.false_or] at happend
    rw [List.replicate_succ, List.flatten_cons, List.append_assoc, happend, ih]

/-- No word of a marker stands in the reads beyond two packets. -/
theorem hasWord_reads (m : Mode) : Text.hasWord w.word (reads m) = false := by
  have hnil : Text.hasWord w.word [] = false := Text.hasWord_nil w.word_ne_nil
  rw [reads, block]
  cases hblock : Index.usual.block? m.policy with
  | none => simp [Text.copies, hnil]
  | some file =>
    have hform := hasForm_of_mem_usualFiles (block_mem_usualFiles hblock)
    have hcopies := hasWord_copies_append w hform (m.packets - 2) []
    rw [List.append_nil, hnil] at hcopies
    split_ifs
    · exact hcopies
    · exact hnil

/-- The words in the head are those in the text that is put in it. -/
theorem hasWord_headWith_append (r s : Text) :
    Text.hasWord w.word (headWith r ++ s) = (Text.hasWord w.word r || Text.hasWord w.word s) := by
  rw [headWith, hasWord_fill_append hasForm_head.tight, hasForm_head.places_eq]
  simp only [List.any_cons, List.any_nil, Bool.or_false, only, Function.update_self]
  rw [hasWord_fill hasForm_definitions.tight, hasForm_definitions.places_eq]
  simp only [List.any_cons, List.any_nil, Bool.or_false, Function.update_self]

theorem hasWord_check_append (m : Mode) (own : Int) (s : Text) :
    Text.hasWord w.word (check m own ++ s) = Text.hasWord w.word s := by
  rw [check, hasWord_fill_append (hasForm_check m).tight, (hasForm_check m).places_eq]
  simp only [List.any_cons, List.any_nil, Bool.or_false, only, Function.update_self,
    hasWord_decimal, Bool.false_or]

theorem hasWord_check (m : Mode) (own : Int) : Text.hasWord w.word (check m own) = false := by
  have h := hasWord_check_append w m own []
  rwa [List.append_nil, Text.hasWord_nil w.word_ne_nil] at h

/-- The words in a name whose markers of the test are filled in are those in the pieces
    between the markers. -/
theorem hasWord_replaceAll_check (m : Mode) (own : Int) (name : Text) :
    Text.hasWord w.word (Text.replaceAll Marker.pidCheck.word (check m own) name) =
      (Text.split Marker.pidCheck.word name).any (Text.hasWord w.word) :=
  Text.hasWord_intercalate w.word_ne_nil ((hasForm_check m).bars w _)
    (hasWord_check_append w m own) _

end Words

/-! ## Words in drafts -/

section Draft

variable {d : Descriptor} {m : Mode} {s : Selection} {w : Marker} {r test name : Text}

theorem values_slot {i : Fin captureLimit} (h : i.val < d.slots.length) :
    values d name test (.slot i) = Numeral.decimal (d.slots[i.val]).val := by
  rw [values, List.getElem?_eq_getElem h, Option.elim_some]

/-- Only the name brings words into a handler. -/
theorem hasWord_values {m' : Marker} (hm' : m' ∈ handlerPlaces (slotCount d m))
    (htest : Text.hasWord w.word test = false) :
    Text.hasWord w.word (values d name test m') =
      (decide (m' = .name) && Text.hasWord w.word name) := by
  -- the name, the test, the number, and a slot that there is one for
  rcases Packaged.mem_handlerPlaces hm' with rfl | rfl | rfl | ⟨i, hi, rfl⟩
  · exact (Bool.true_and _).symm
  · exact htest
  · exact hasWord_decimal w d.number
  · rw [values_slot (lt_of_lt_of_le hi (slotCount_le d m).1), hasWord_decimal]
    rfl

theorem hasWord_handler_append (htest : Text.hasWord w.word test = false) (t : Text) :
    Text.hasWord w.word (handler m test name d ++ t) =
      (Text.hasWord w.word name || Text.hasWord w.word t) := by
  have hform := hasForm_handler d m
  rw [handler, hasWord_fill_append hform.tight, hform.places_eq]
  congr 1
  rw [Bool.eq_iff_iff, List.any_eq_true]
  constructor
  · rintro ⟨m', hm', hword⟩
    rw [hasWord_values hm' htest, Bool.and_eq_true] at hword
    exact hword.2
  -- every handler shows the name
  · intro hword
    exact ⟨.name, by simp [handlerPlaces], hword⟩

theorem hasWord_exit (htest : Text.hasWord w.word test = false) :
    Text.hasWord w.word (exit s test) = false := by
  rw [exit]
  split_ifs
  · rw [hasWord_fill hasForm_tracepoints.tight, hasForm_tracepoints.places_eq]
    simp only [List.any_cons, List.any_nil, Bool.or_false, only, Function.update_self, htest]
  · exact Text.hasWord_nil w.word_ne_nil

/-- The words in a draft are those in the names, once the reads and the test have none. -/
theorem hasWord_draft (hr : Text.hasWord w.word r = false)
    (htest : Text.hasWord w.word test = false) (ds : List Descriptor)
    (name : Descriptor → Text) :
    Text.hasWord w.word (draft m s ds r test name) =
      ds.any fun d => Text.hasWord w.word (name d) := by
  rw [draft, List.append_assoc, hasWord_headWith_append, hr, Bool.false_or]
  induction ds with
  | nil => exact hasWord_exit htest
  | cons d ds ih =>
    rw [List.map_cons, List.flatten_cons, List.append_assoc, hasWord_handler_append htest, ih]
    rfl

/-! ## Filling in the test and the reads -/

/-- Filling in the test fills it in in the name, too. -/
theorem replaceAll_handler_append (r : Text) (t : Text) :
    Text.replaceAll Marker.pidCheck.word r (handler m Marker.pidCheck.word name d ++ t) =
      handler m r (Text.replaceAll Marker.pidCheck.word r name) d ++
        Text.replaceAll Marker.pidCheck.word r t := by
  have hform := hasForm_handler d m
  have hkeep {t : Text} (h : Text.hasWord Marker.pidCheck.word t = false) :
      Text.replaceAll Marker.pidCheck.word r t = t :=
    Text.replaceAll_of_not_hasWord Marker.pidCheck.word_ne_nil r h
  rw [handler, replaceAll_fill_append hform.tight, handler]
  -- place by place: the name is rewritten, the test filled in, numerals stay
  refine congrArg (· ++ _) (fill_congr fun m' hm' => ?_)
  rw [hform.places_eq] at hm'
  rcases Packaged.mem_handlerPlaces hm' with rfl | rfl | rfl | ⟨i, hi, rfl⟩
  · rfl
  · exact Text.replaceAll_word Marker.pidCheck.word_ne_nil r
  · exact hkeep (hasWord_decimal _ d.number)
  · have hi := lt_of_lt_of_le hi (slotCount_le d m).1
    rw [values_slot hi, values_slot hi]
    exact hkeep (hasWord_decimal _ _)

theorem replaceAll_exit (r : Text) :
    Text.replaceAll Marker.pidCheck.word r (exit s Marker.pidCheck.word) = exit s r := by
  rw [exit, exit]
  split_ifs
  · have hplaces := hasForm_tracepoints.places_eq
    rw [replaceAll_fill hasForm_tracepoints.tight]
    refine fill_congr fun m' hm' => ?_
    rw [hplaces, List.mem_singleton] at hm'
    rw [hm', only, only, Function.update_self, Function.update_self,
      Text.replaceAll_word Marker.pidCheck.word_ne_nil]
  · exact Text.replaceAll_nil Marker.pidCheck.word_ne_nil

theorem replaceAll_headWith_append {q : Text} (hq : Text.hasWord Marker.pidCheck.word q = false)
    (r t : Text) :
    Text.replaceAll Marker.pidCheck.word r (headWith q ++ t) =
      headWith q ++ Text.replaceAll Marker.pidCheck.word r t := by
  rw [headWith, replaceAll_fill_append hasForm_head.tight]
  -- the head has one place, the definitions, and they have no word but what `q` has
  refine congrArg (· ++ _) (fill_congr fun m' hm' => ?_)
  rw [hasForm_head.places_eq, List.mem_singleton] at hm'
  rw [hm', only, Function.update_self]
  refine Text.replaceAll_of_not_hasWord Marker.pidCheck.word_ne_nil r ?_
  rw [hasWord_fill hasForm_definitions.tight, hasForm_definitions.places_eq]
  simp only [List.any_cons, List.any_nil, Bool.or_false, only, Function.update_self, hq]

/-- Filling in the test of a draft fills in its handlers, and rewrites the names that have
    the marker of the test. -/
theorem replaceAll_draft {q : Text} (hq : Text.hasWord Marker.pidCheck.word q = false) (r : Text)
    (ds : List Descriptor) (name : Descriptor → Text) :
    Text.replaceAll Marker.pidCheck.word r (draft m s ds q Marker.pidCheck.word name) =
      draft m s ds q r fun d => Text.replaceAll Marker.pidCheck.word r (name d) := by
  rw [draft, draft, List.append_assoc, List.append_assoc, replaceAll_headWith_append hq]
  congr 1
  induction ds with
  | nil => exact replaceAll_exit r
  | cons d ds ih =>
    rw [List.map_cons, List.flatten_cons, List.append_assoc, replaceAll_handler_append, ih,
      List.map_cons, List.flatten_cons, List.append_assoc]

/-- Filling in the reads of a draft in which they are open. -/
theorem replaceFirst?_draft (m : Mode) (s : Selection) (test r : Text) (ds : List Descriptor)
    (name : Descriptor → Text) :
    Text.replaceFirst? Marker.reads.word r (draft m s ds Marker.reads.word test name) =
      some (draft m s ds r test name) := by
  have hword : Text.replaceFirst? Marker.reads.word r Marker.reads.word = some r := by
    have hcut := Text.cut?_word_append Marker.reads.word_ne_nil []
    rw [List.append_nil] at hcut
    rw [Text.replaceFirst?, hcut, Option.map_some]
    exact congrArg some (List.append_nil r)
  -- the place is in the definitions, and these are in their place in the head
  have hdefs := replaceFirst?_fill_value (m := .reads) (only .openReads Marker.reads.word)
    hasForm_definitions.tight hasForm_definitions.places_eq
    (by rw [only, Function.update_self]; exact hword)
  have hhead := replaceFirst?_fill_value (m := .reads)
    (only .definitions (fill (only .openReads Marker.reads.word) _))
    hasForm_head.tight hasForm_head.places_eq
    (by rw [only, Function.update_self]; exact hdefs)
  rw [only, only, Function.update_idem, Function.update_idem] at hhead
  have hhead : Text.replaceFirst? Marker.reads.word r (headWith Marker.reads.word) =
      some (headWith r) := hhead
  rw [draft, List.append_assoc, Text.replaceFirst?_append_left Marker.reads.word_ne_nil hhead,
    ← List.append_assoc, draft]

end Draft

end Tracewright.Outline
