/-
  Tracewright.Proofs.Program.Alike

  What of a mode a program does not depend on.  The number of packets counts
  only where strings need more than two, the policy only by the handlers and
  the block it stands for, the expression by what it selects.

    * `Mode.Alike`        — modes that ask for the same programs.
    * `Mode.Alike.result_generate`
                          — they get them, or the same failure.
    * `Outline.exists_result_generate_eq`
                          — the place of the reads in a program.
    * `generate_of_alike` — which modes are alike, and how the programs of two
                            policies differ where they do.
-/
import Tracewright.Proofs.Program.Faults
import Tracewright.Proofs.Program.Names

namespace Tracewright

/-- Two modes ask for the same programs of the fragments of an index. -/
structure Mode.Alike (x : Index) (m m' : Mode) : Prop where
  pid : m'.pid = m.pid
  family : m'.fullFeature.isTrue = m.fullFeature.isTrue
  expression : (Selection.resolve m'.expression).result = (Selection.resolve m.expression).result
  handler : ∀ count : Nat, count ≤ captureLimit →
    x.handler (.int count) m'.policy = x.handler (.int count) m.policy
  usesOverflow : m'.usesOverflow = m.usesOverflow
  /-- The policy and the packets count only where there are reads beyond two packets. -/
  reads : m.usesOverflow = true → m'.policy = m.policy ∧ m'.packets = m.packets

namespace Mode.Alike

variable {source : Source Run} {m m' : Mode}

/-! ## Handlers -/

theorem case_eq {x : Index} (h : Alike x m m') (d : Descriptor) : d.case m' = d.case m := by
  rw [Descriptor.case, h.family, Descriptor.case]

theorem fragment_eq (h : Alike source.index m m') (d : Descriptor) {case : Case}
    (hcase : (d.case m).result = .ok case) :
    Handler.fragment source d m' case = Handler.fragment source d m case := by
  cases case with
  | fork => rfl
  | exit => rfl
  | general count =>
    rw [Handler.fragment, h.handler count (Descriptor.le_of_case hcase), Handler.fragment]

theorem select_eq (h : Alike source.index m m') (d : Descriptor) :
    Handler.select source d m' = Handler.select source d m := by
  rw [Handler.select, h.case_eq d, Handler.select]
  refine Run.bind_congr_of_ok (x := d.case m) fun case hcase => ?_
  rw [h.fragment_eq d hcase]

/-! ## The text before the last pass -/

theorem head_eq (h : Alike source.index m m') :
    Assembly.head source m' = Assembly.head source m := by
  rw [Assembly.head, Assembly.definitions, h.usesOverflow, Assembly.head, Assembly.definitions]

theorem pieces_eq (h : Alike source.index m m') (s : Selection) (ds : List Descriptor) :
    Assembly.pieces source m' s ds = Assembly.pieces source m s ds := by
  have hhandler : Assembly.handler source m' = Assembly.handler source m := by
    funext d
    rw [Assembly.handler, h.select_eq d, Assembly.handler]
  rw [Assembly.pieces, Assembly.handlers, h.head_eq, hhandler, Assembly.pieces, Assembly.handlers]

/-- The expression is still told as it was given, so only the results are the same. -/
theorem result_assemble (h : Alike source.index m m') (c : Catalog) :
    (Assembly.assemble source c m').result = (Assembly.assemble source c m).result := by
  rw [Assembly.result_assemble_eq, Assembly.result_assemble_eq, h.expression]
  simp only [h.pieces_eq]

/-! ## The last pass -/

theorem pidCheck_eq (h : Alike source.index m m') (own : Int) :
    Attach.pidCheck source m' own = Attach.pidCheck source m own := by
  rw [Attach.pidCheck, h.pid, h.family, Attach.pidCheck]

theorem expandReads_eq (h : Alike source.index m m') (program : Buffer) :
    Attach.expandReads source m' program = Attach.expandReads source m program := by
  rw [Attach.expandReads, h.usesOverflow, Attach.expandReads]
  cases huses : m.usesOverflow with
  | false => rfl
  | true =>
    obtain ⟨hpolicy, hpackets⟩ := h.reads huses
    rw [hpolicy, hpackets]

theorem apply_eq (h : Alike source.index m m') (own : Int) (text : Text) :
    Attach.apply source m' own text = Attach.apply source m own text := by
  rw [Attach.apply, h.pidCheck_eq own, Attach.apply]
  simp only [h.expandReads_eq]

/-- Modes that are alike have the same programs, and where they have none the same failures. -/
theorem result_generate (h : Alike source.index m m') (c : Catalog) (own : Int) :
    (generate source c m' own).result = (generate source c m own).result := by
  rw [generate, generate, Run.result_bind, Run.result_bind, h.result_assemble c]
  simp only [h.apply_eq own]

end Mode.Alike

/-! ## Modes that are alike -/

namespace Mode

variable {m m' : Mode} {s : Selection}

theorem usesOverflow_of_le (h : m.packets ≤ 2) : m.usesOverflow = false := by
  have hpackets : ¬ 2 < m.packets := by omega
  rw [usesOverflow, decide_eq_false hpackets, Bool.and_false]

theorem usesOverflow_of_fixed (h : m.policy = .fixed) : m.usesOverflow = false := by
  rw [usesOverflow, h]
  rfl

/-- Two expressions that name one selection end the look-up in one way. -/
theorem result_resolve_congr
    (hs : Selection.ofName? (m.expression.getD Selection.usualName) = some s)
    (hs' : Selection.ofName? (m'.expression.getD Selection.usualName) = some s) :
    (Selection.resolve m'.expression).result = (Selection.resolve m.expression).result := by
  rw [Selection.result_resolve_of_some hs, Selection.result_resolve_of_some hs']

/-- Under one policy, packets that are not used do not count. -/
theorem alike_of_policy (x : Index) (hpid : m'.pid = m.pid)
    (hfamily : m'.fullFeature.isTrue = m.fullFeature.isTrue)
    (hs : Selection.ofName? (m.expression.getD Selection.usualName) = some s)
    (hs' : Selection.ofName? (m'.expression.getD Selection.usualName) = some s)
    (hpolicy : m'.policy = m.policy)
    (hpackets : m.policy = .fixed ∨ (m.packets ≤ 2 ∧ m'.packets ≤ 2) ∨ m'.packets = m.packets) :
    Alike x m m' where
  pid := hpid
  family := hfamily
  expression := result_resolve_congr hs hs'
  handler count _ := by rw [hpolicy]
  usesOverflow := by
    rcases hpackets with hfixed | ⟨hfew, hfew'⟩ | hsame
    · rw [usesOverflow_of_fixed hfixed, usesOverflow_of_fixed (hpolicy.trans hfixed)]
    · rw [usesOverflow_of_le hfew, usesOverflow_of_le hfew']
    · rw [usesOverflow, hpolicy, hsame, usesOverflow]
  reads huses := by
    refine ⟨hpolicy, ?_⟩
    rcases hpackets with hfixed | ⟨hfew, -⟩ | hsame
    · rw [usesOverflow_of_fixed hfixed] at huses
      cases huses
    · rw [usesOverflow_of_le hfew] at huses
      cases huses
    · exact hsame

/-- With two packets or less, the policies of variable length share everything that the usual
    index lists. -/
theorem alike_of_few (hpid : m'.pid = m.pid)
    (hfamily : m'.fullFeature.isTrue = m.fullFeature.isTrue)
    (hs : Selection.ofName? (m.expression.getD Selection.usualName) = some s)
    (hs' : Selection.ofName? (m'.expression.getD Selection.usualName) = some s)
    (hlength : m'.policy.isVariableLength = m.policy.isVariableLength)
    (hfew : m.packets ≤ 2) (hfew' : m'.packets ≤ 2) : Alike Index.usual m m' where
  pid := hpid
  family := hfamily
  expression := result_resolve_congr hs hs'
  handler count hcount := by
    rw [Outline.handler_usual hcount, Outline.handler_usual hcount, Index.usualHandler, hlength,
      Index.usualHandler]
  usesOverflow := by rw [usesOverflow_of_le hfew, usesOverflow_of_le hfew']
  reads huses := by
    rw [usesOverflow_of_le hfew] at huses
    cases huses

end Mode

/-! ## Where the programs of two policies differ -/

namespace Outline

open Packaged (contents)

variable {c : Catalog} {m m' : Mode} {s : Selection}

/-- The head is the same up to the place of the reads and behind it. -/
theorem exists_headWith_eq : ∃ before after : Text, ∀ r, headWith r = before ++ r ++ after := by
  have hcount {x : Text} {marker : Marker} (hx : HasForm x [marker]) :
      (places x).count marker = 1 := by
    rw [hx.places_eq]
    exact List.count_singleton_self
  obtain ⟨top, bottom, hhead⟩ := exists_fill_update Marker.word (hcount hasForm_head)
  obtain ⟨left, right, hdefs⟩ := exists_fill_update Marker.word (hcount hasForm_definitions)
  refine ⟨top ++ left, right ++ bottom, fun r => ?_⟩
  rw [headWith, only, only, hhead, hdefs]
  simp only [List.append_assoc]

theorem handler_congr (hfamily : m'.fullFeature.isTrue = m.fullFeature.isTrue)
    (hlength : m'.policy.isVariableLength = m.policy.isVariableLength) (test name : Text)
    (d : Descriptor) : handler m' test name d = handler m test name d := by
  have hkind : kind d m' = kind d m := by rw [kind, hfamily, kind]
  have hfile : file m'.policy (kind d m) = file m.policy (kind d m) := by
    cases kind d m with
    | fork => rfl
    | exit => rfl
    | general count => rw [file, file, Index.usualHandler, hlength, Index.usualHandler]
  rw [handler, hkind, hfile, handler]

theorem check_congr (hpid : m'.pid = m.pid)
    (hfamily : m'.fullFeature.isTrue = m.fullFeature.isTrue) (own : Int) :
    check m' own = check m own := by
  rw [check, checkMarker, process, checkFile, hpid, hfamily, check, checkMarker, process, checkFile]

/-- Why there is no program for calls with plain names: a number cannot be written, that of a
    call or of the process, or the reads cannot be made. -/
def obstacle? (m : Mode) (own : Int) (ds : List Descriptor) : Option Failure :=
  if ds.all fun d => Numeral.isWritable d.number then hindrance? m own
  else some (.value .overlongNumeral)

theorem obstacle?_of_writable {m : Mode} {own : Int} {ds : List Descriptor}
    (hnumbers : (ds.all fun d => Numeral.isWritable d.number) = true) :
    obstacle? m own ds = hindrance? m own :=
  if_pos hnumbers

/-- The program for calls with plain names is the same up to the reads and behind them, whatever
    the policy of variable length and the packets are. -/
theorem exists_result_generate_eq (own : Int)
    (hnames : ∀ d ∈ c.select s.mask, ∀ w ∈ Marker.words, ¬ w <:+: d.name) :
    ∃ before after : Text, ∀ m' : Mode, m'.pid = m.pid →
      m'.fullFeature.isTrue = m.fullFeature.isTrue →
      Selection.ofName? (m'.expression.getD Selection.usualName) = some s →
      m'.policy.isVariableLength = m.policy.isVariableLength →
      (generate Store.packaged.source c m' own).result =
        match obstacle? m' own (c.select s.mask) with
        | some e => .error e
        | none => .ok (before ++ reads m' ++ after) := by
  obtain ⟨before, after, hhead⟩ := exists_headWith_eq
  refine ⟨before, after ++ ((c.select s.mask).map fun d =>
    handler m (check m own) (shownName m own d) d).flatten ++ exit s (check m own), ?_⟩
  intro m' hpid hfamily hs' hlength
  by_cases hnumbers : ((c.select s.mask).all fun d => Numeral.isWritable d.number) = true
  · rw [obstacle?_of_writable hnumbers, result_generate own hs' (List.all_eq_true.1 hnumbers),
      left_of_plain hnames]
    -- all but the reads is what it is in the other mode
    have hdraft : draft m' s (c.select s.mask) (reads m') (check m' own) (shownName m' own) =
        before ++ reads m' ++ (after ++ ((c.select s.mask).map fun d =>
          handler m (check m own) (shownName m own d) d).flatten ++ exit s (check m own)) := by
      rw [draft, hhead]
      simp only [shownName, check_congr hpid hfamily own, handler_congr hfamily hlength,
        List.append_assoc]
    cases hindrance? m' own with
    | some e => rfl
    | none => exact congrArg Except.ok hdraft
  · rw [obstacle?, if_neg hnumbers]
    have hlong : ∃ d ∈ c.select s.mask, Numeral.isWritable d.number = false := by
      simpa using hnumbers
    rw [generate, Run.result_bind_of_error (result_assemble_of_overlong hs' hlong)]

end Outline

/-! ## What a program does not depend on -/

open Packaged (contents) in
/-- Modes for one process, with features that are on in both or in neither, and with names of one
    selection.  Under one policy they have one program, or one failure, unless the number of
    packets is used; so they have under the two policies of variable length with the usual index
    as long as no reads beyond two packets are needed.  Where such reads are needed, the programs
    of these policies differ by the block that they repeat, and nothing else: if the calls have
    plain names and nothing is too long or too large to be made. -/
theorem generate_of_alike (source : Source Run) (c : Catalog) (own : Int) {m m' : Mode}
    {s : Selection} (hpid : m'.pid = m.pid)
    (hfamily : m'.fullFeature.isTrue = m.fullFeature.isTrue)
    (hs : Selection.ofName? (m.expression.getD Selection.usualName) = some s)
    (hs' : Selection.ofName? (m'.expression.getD Selection.usualName) = some s) :
    (m'.policy = m.policy →
      m.policy = .fixed ∨ (m.packets ≤ 2 ∧ m'.packets ≤ 2) ∨ m'.packets = m.packets →
        (generate source c m' own).result = (generate source c m own).result) ∧
    (source.index = Index.usual → m.policy = .full → m'.policy = .fullConst →
      m.packets ≤ 2 → m'.packets ≤ 2 →
        (generate source c m' own).result = (generate source c m own).result) ∧
    (m.policy = .full → m'.policy = .fullConst → m'.packets = m.packets → 2 < m.packets →
      (∀ d ∈ c.select s.mask, ∀ w ∈ Marker.words, ¬ w <:+: d.name) →
        ∃ before after : Text,
          (generate Store.packaged.source c m own).result =
            (match Outline.obstacle? m own (c.select s.mask) with
            | some e => .error e
            | none => .ok (before ++
                Text.copies (m.packets - 2) (contents Index.usual.fullBlock) ++ after)) ∧
          (generate Store.packaged.source c m' own).result =
            (match Outline.obstacle? m' own (c.select s.mask) with
            | some e => .error e
            | none => .ok (before ++
                Text.copies (m.packets - 2) (contents Index.usual.constBlock) ++ after))) := by
  refine ⟨fun hpolicy hpackets => ?_, fun hindex hfull hconst hfew hfew' => ?_,
    fun hfull hconst hsame hmany hnames => ?_⟩
  · exact (Mode.alike_of_policy _ hpid hfamily hs hs' hpolicy hpackets).result_generate c own
  · have halike : Mode.Alike source.index m m' := by
      rw [hindex]
      exact Mode.alike_of_few hpid hfamily hs hs' (by rw [hfull, hconst]; rfl) hfew hfew'
    exact halike.result_generate c own
  · -- one outline for both modes, in which only the block between the two texts is another one
    obtain ⟨before, after, hresult⟩ :=
      Outline.exists_result_generate_eq (m := m) (c := c) (s := s) own hnames
    have hlength : m'.policy.isVariableLength = m.policy.isVariableLength := by
      rw [hfull, hconst]
      rfl
    have huses : m.usesOverflow = true := by
      rw [Mode.usesOverflow, hfull, decide_eq_true hmany]
      rfl
    have huses' : m'.usesOverflow = true := by
      rw [Mode.usesOverflow, hconst, hsame, decide_eq_true hmany]
      rfl
    have hreads : Outline.reads m =
        Text.copies (m.packets - 2) (contents Index.usual.fullBlock) :=
      Outline.reads_of_usesOverflow huses (by rw [hfull, Index.block?])
    have hreads' : Outline.reads m' =
        Text.copies (m.packets - 2) (contents Index.usual.constBlock) := by
      rw [← hsame]
      exact Outline.reads_of_usesOverflow huses' (by rw [hconst, Index.block?])
    refine ⟨before, after, ?_, ?_⟩
    · rw [hresult m rfl rfl hs rfl, hreads]
    · rw [hresult m' hpid hfamily hs' hlength, hreads']

/-- Packets that are not used, and two policies whose programs differ by their blocks. -/
theorem generate_of_alike_blocks :
    let c : Catalog := ⟨[⟨2, "open", true, [0], 1⟩, ⟨-7, "fork", true, [], 0⟩], by decide⟩
    let m : Mode := { fullFeature := .int 1, policy := .full, packets := 4 }
    let m' : Mode :=
      { fullFeature := .bool true, policy := .fullConst, packets := 4, expression := some "ALL" }
    (∀ n : Nat, (generate Store.packaged.source c { packets := n } 4711).result =
      (generate Store.packaged.source c {} 4711).result) ∧
    ∃ before after : Text,
      (generate Store.packaged.source c m 4711).result =
        .ok (before ++ Text.copies 2 (Packaged.contents Index.usual.fullBlock) ++ after) ∧
      (generate Store.packaged.source c m' 4711).result =
        .ok (before ++ Text.copies 2 (Packaged.contents Index.usual.constBlock) ++ after) := by
  intro c m m'
  let s : Selection := ⟨0, true⟩
  have hs : Selection.ofName? (m.expression.getD Selection.usualName) = some s := by
    decide
  have hs' : Selection.ofName? (m'.expression.getD Selection.usualName) = some s := by
    decide
  have hsmall : ∀ d ∈ c.select s.mask, d.number.natAbs < Nat.pow 10 9 := by decide
  have hnumbers : ((c.select s.mask).all fun d => Numeral.isWritable d.number) = true :=
    List.all_eq_true.2 fun d hd => Numeral.isWritable_of_lt (hsmall d hd)
  have hroom (q : Mode) (hpid : q.pid = none) (huses : q.usesOverflow = true)
      (hcopies : (Outline.copiesFault? (q.packets - 2) (Outline.block q)).isNone = true) :
      Outline.obstacle? q 4711 (c.select s.mask) = none := by
    have hprocess : Numeral.isWritable (Outline.process q 4711) = true := by
      rw [Outline.process, hpid]
      exact Numeral.isWritable_of_lt (by decide)
    rw [Outline.obstacle?_of_writable hnumbers, Outline.hindrance?_of_usesOverflow hprocess huses]
    exact Option.isNone_iff_eq_none.1 hcopies
  refine ⟨fun n => ?_, ?_⟩
  · let fixed : Mode := {}
    let more : Mode := { packets := n }
    have hpid : more.pid = fixed.pid := rfl
    have hfixed : fixed.policy = .fixed := rfl
    exact (generate_of_alike Store.packaged.source c 4711 hpid rfl hs hs).1 rfl (.inl hfixed)
  · have hpid : m'.pid = m.pid := rfl
    have hpolicy : m.policy = .full := rfl
    obtain ⟨before, after, hresult, hresult'⟩ :=
      (generate_of_alike Store.packaged.source c 4711 hpid rfl hs hs').2.2
        hpolicy rfl rfl (by decide) (by decide)
    rw [hroom m rfl (by decide) (by decide +kernel)] at hresult
    rw [hroom m' rfl (by decide) (by decide +kernel)] at hresult'
    exact ⟨before, after, hresult, hresult'⟩

/-- Blocks can be too many to be repeated, and then neither policy has a program. -/
theorem generate_of_too_many_blocks :
    let m : Mode := { policy := .full, packets := Nat.pow 2 64 + 2, expression := some "kp-all" }
    let m' : Mode := { m with policy := .fullConst }
    Selection.ofName? "kp-all" = some ⟨0, false⟩ ∧ 2 < m.packets ∧
      (generate Store.packaged.source Catalog.empty m 4711).result = .error .tooLarge ∧
      (generate Store.packaged.source Catalog.empty m' 4711).result = .error .tooLarge ∧
      ¬ ∃ before after : Text,
        (generate Store.packaged.source Catalog.empty m 4711).result = .ok (before ++
          Text.copies (m.packets - 2) (Packaged.contents Index.usual.fullBlock) ++ after) ∧
        (generate Store.packaged.source Catalog.empty m' 4711).result = .ok (before ++
          Text.copies (m.packets - 2) (Packaged.contents Index.usual.constBlock) ++ after) := by
  intro m m'
  have hs : Selection.ofName? "kp-all" = some ⟨0, false⟩ := by decide
  have hprocess : Numeral.isWritable 4711 = true := Numeral.isWritable_of_lt (by decide)
  have hfault : Outline.hindrance? m 4711 = some .tooLarge :=
    Outline.hindrance?_of_tooMany hprocess (by decide) (by decide)
  have hfault' : Outline.hindrance? m' 4711 = some .tooLarge :=
    Outline.hindrance?_of_tooMany hprocess (by decide) (by decide)
  have hresult := Outline.result_generate (c := Catalog.empty) (m := m) (s := ⟨0, false⟩) 4711 hs
    fun d hd => absurd hd List.not_mem_nil
  have hresult' := Outline.result_generate (c := Catalog.empty) (m := m') (s := ⟨0, false⟩) 4711 hs
    fun d hd => absurd hd List.not_mem_nil
  rw [hfault] at hresult
  rw [hfault'] at hresult'
  refine ⟨hs, by decide, hresult, hresult', ?_⟩
  rintro ⟨before, after, hprogram, -⟩
  cases hresult.symm.trans hprogram

end Tracewright
