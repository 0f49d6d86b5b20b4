/-
  Tracewright.Proofs.Settings.Walk

  Putting an item under names, in place.  The walk fails where something else
  than a mapping stands on the way, and changes nothing then.  Otherwise it
  comes to a last mapping that was there, and puts the item into that one,
  perhaps within mappings that it makes.  If one comes to this mapping in one
  way only, nothing else that one could find has changed.

    * `IsBlocked`          — something else than a mapping stands on the way.
    * `assignAt_outcome`   — the walk fails if it is blocked, and not otherwise.
    * `PutsInto`           — the last mapping that was there.
    * `HasPutIn`           — what has changed.
    * `IsSite`             — a mapping to which one comes in one way only.
    * `HasPutIn.find?_key`, `HasPutIn.find?_of_apart`, `HasPutIn.isAbove`
                           — what is found under the names, apart from them, and
                             above them.
-/
import Tracewright.Proofs.Run
import Tracewright.Proofs.Value.Copies

namespace Tracewright.Memory

variable {m m' : Memory} {i j x : Item} {k : Text} {ks names p : List Text}
  {entries : Mapping Item} {r : Nat}

/-! ## When the walk fails -/

/-- Something else than a mapping stands on the way to the last name. -/
def IsBlocked (m : Memory) (i : Item) (names : List Text) : Prop :=
  ∃ p j, p <+: names.dropLast ∧ m.find? i p = some j ∧ m.mapping? j = none

/-- The way from a mapping is blocked if there is something under the first name, and the way on
    from there is blocked. -/
theorem isBlocked_cons (hi : m.mapping? i = some entries) (hks : ks ≠ []) :
    m.IsBlocked i (k :: ks) ↔ ∃ j, entries.getText? k = some j ∧ m.IsBlocked j ks := by
  rw [IsBlocked, List.dropLast_cons_of_ne_nil hks]
  constructor
  · rintro ⟨p, j, hp, hj, hnone⟩
    rcases List.prefix_cons_iff.1 hp with rfl | ⟨q, rfl, hq⟩
    · -- here there is a mapping
      cases hj
      rw [hi] at hnone
      cases hnone
    · rw [find?_cons hi, Option.bind_eq_some_iff] at hj
      obtain ⟨below, hbelow, hj⟩ := hj
      exact ⟨below, hbelow, q, j, hq, hj, hnone⟩
  · rintro ⟨below, hbelow, q, j, hq, hj, hnone⟩
    refine ⟨k :: q, j, List.prefix_cons_iff.2 (.inr ⟨q, rfl, hq⟩), ?_, hnone⟩
    rw [find?_cons hi, hbelow]
    exact hj

theorem not_isBlocked_singleton (hi : m.mapping? i = some entries) (k : Text) :
    ¬ m.IsBlocked i [k] := by
  rintro ⟨p, j, hp, hj, hnone⟩
  rw [List.prefix_nil.1 hp] at hj
  cases hj
  rw [hi] at hnone
  cases hnone

theorem assignAt_cons (x i : Item) (k : Text) (h : ks ≠ []) :
    assignAt x i (k :: ks) = enter i k >>= fun below => assignAt x below ks :=
  assignAt.eq_3 x i k ks h

theorem putUnder_of_mapping? {r : Nat} (h : m.mapping? (.ref r) = some entries) (k : Text)
    (x : Item) : putUnder (.ref r) k x m = (pure (), m.putAt r (.text k) x) := by
  simp only [putUnder, h]

theorem putUnder_of_none (h : m.mapping? i = none) (k : Text) (x : Item) :
    putUnder i k x m = (Run.fail .wrongKind, m) := by
  cases i <;> simp only [putUnder, h]

theorem enter_of_some {r : Nat} {j : Item} (h : m.mapping? (.ref r) = some entries)
    (hk : entries.getText? k = some j) : enter (.ref r) k m = (pure j, m) := by
  simp only [enter, h, hk]

/-- The memory after a mapping has been made under a name. -/
abbrev madeUnder (m : Memory) (r : Nat) (k : Text) : Memory :=
  (m.make (.map [])).putAt r (.text k) (.ref m.objects.length)

theorem enter_of_none {r : Nat} (h : m.mapping? (.ref r) = some entries)
    (hk : entries.getText? k = none) :
    enter (.ref r) k m = (pure (.ref m.objects.length), m.madeUnder r k) := by
  simp only [enter, h, hk]

theorem enter_of_not_mapping (h : m.mapping? i = none) (k : Text) :
    enter i k m = (Run.fail .wrongKind, m) := by
  cases i <;> simp only [enter, h]

/-- What is where after a mapping has been made. -/
theorem object?_madeUnder {r : Nat} (h : m.mapping? (.ref r) = some entries) (k : Text) :
    (m.madeUnder r k).mapping? (.ref r) =
        some (entries.put (.text k) (.ref m.objects.length)) ∧
      (m.madeUnder r k).object? m.objects.length = some (.map []) ∧
      (∀ q < m.objects.length, q ≠ r → (m.madeUnder r k).object? q = m.object? q) ∧
      (m.madeUnder r k).objects.length = m.objects.length + 1 ∧
      (m.madeUnder r k).depths = m.depths := by
  have hr : r < m.objects.length := lt_length_of_object? (mapping?_ref_eq_some_iff.1 h)
  have hmake : (m.make (.map [])).mapping? (.ref r) = some entries := by
    rw [mapping?_congr (object?_make_of_lt hr _), h]
  refine ⟨mapping?_putAt hmake _ _, ?_, fun q hq hne => ?_, ?_, depths_putAt _ _ _ _⟩
  · rw [object?_putAt_of_ne (Nat.ne_of_gt hr), object?_make_length]
  · rw [object?_putAt_of_ne hne, object?_make_of_lt hq]
  · rw [length_putAt, length_make]

/-- A walk from a mapping that holds nothing succeeds. -/
theorem exists_assignAt_of_empty (x : Item) (hnames : names ≠ [])
    (hi : m.mapping? i = some []) : ∃ m', assignAt x i names m = (pure (), m') := by
  induction names generalizing m i with
  | nil => exact absurd rfl hnames
  | cons k ks ih =>
    obtain ⟨r, rfl, -⟩ := mapping?_eq_some_iff.1 hi
    by_cases hks : ks = []
    · subst hks
      exact ⟨_, putUnder_of_mapping? hi k x⟩
    · rw [assignAt_cons x _ k hks, Action.bind_of_pure (enter_of_none hi rfl)]
      obtain ⟨-, hmade, -⟩ := object?_madeUnder hi k
      exact ih hks (mapping?_ref_eq_some_iff.2 hmade)

/-- The walk fails if it is blocked, and leaves the memory as it was then; otherwise it succeeds. -/
theorem assignAt_outcome (x : Item) (hnames : names ≠ []) (m : Memory) (i : Item) :
    (m.IsBlocked i names ∧ assignAt x i names m = (Run.fail .wrongKind, m)) ∨
      (¬ m.IsBlocked i names ∧ ∃ m', assignAt x i names m = (pure (), m')) := by
  induction names generalizing i with
  | nil => exact absurd rfl hnames
  | cons k ks ih =>
    cases hi : m.mapping? i with
    | none =>
      refine .inl ⟨⟨[], i, List.nil_prefix, rfl, hi⟩, ?_⟩
      by_cases hks : ks = []
      · subst hks
        exact putUnder_of_none hi k x
      · rw [assignAt_cons x i k hks]
        exact Action.bind_of_fail (enter_of_not_mapping hi k) _
    | some entries =>
      obtain ⟨r, rfl, -⟩ := mapping?_eq_some_iff.1 hi
      by_cases hks : ks = []
      · subst hks
        exact .inr ⟨not_isBlocked_singleton hi k, _, putUnder_of_mapping? hi k x⟩
      · rw [isBlocked_cons hi hks, assignAt_cons x _ k hks]
        cases hk : entries.getText? k with
        | none =>
          -- a mapping is made, and the walk in there cannot fail any more
          rw [Action.bind_of_pure (enter_of_none hi hk)]
          obtain ⟨-, hmade, -⟩ := object?_madeUnder hi k
          exact .inr ⟨nofun, exists_assignAt_of_empty x hks (mapping?_ref_eq_some_iff.2 hmade)⟩
        | some j =>
          rw [Action.bind_of_pure (enter_of_some hi hk)]
          rcases ih hks j with ⟨hblocked, hfail⟩ | ⟨hopen, hok⟩
          · exact .inl ⟨⟨j, rfl, hblocked⟩, hfail⟩
          · refine .inr ⟨?_, hok⟩
            rintro ⟨j', hj', hblocked⟩
            cases hj'
            exact hopen hblocked

/-! ## Where the walk ends -/

/-- Something is put into a mapping under names: it is the last one on the way. -/
def PutsInto (m : Memory) (i : Item) (names : List Text) (r : Nat) : Prop :=
  ∃ p k ks, names = p ++ k :: ks ∧ m.find? i p = some (.ref r) ∧
    (m.mapping? (.ref r)).isSome = true ∧ (ks = [] ∨ m.find? (.ref r) [k] = none)

theorem PutsInto.reaches (h : m.PutsInto i names r) : m.Reaches i r := by
  obtain ⟨p, -, -, -, hp, -⟩ := h
  rw [find?_eq_at?] at hp
  exact reaches_of_at? hp (reaches_self m r)

/-- A way that is not blocked leads to the mapping into which something is put, and the walk goes
    on from there. -/
theorem exists_site (x : Item) (hnames : names ≠ []) (hopen : ¬ m.IsBlocked i names) :
    ∃ p k ks r entries, names = p ++ k :: ks ∧ m.find? i p = some (.ref r) ∧
      m.mapping? (.ref r) = some entries ∧ (ks = [] ∨ entries.getText? k = none) ∧
      assignAt x i names m = assignAt x (.ref r) (k :: ks) m := by
  induction names generalizing i with
  | nil => exact absurd rfl hnames
  | cons k ks ih =>
    cases hi : m.mapping? i with
    | none => exact absurd ⟨[], i, List.nil_prefix, rfl, hi⟩ hopen
    | some entries =>
      obtain ⟨r, rfl, -⟩ := mapping?_eq_some_iff.1 hi
      by_cases hks : ks = []
      · exact ⟨[], k, ks, r, entries, rfl, rfl, hi, .inl hks, rfl⟩
      cases hk : entries.getText? k with
      | none => exact ⟨[], k, ks, r, entries, rfl, rfl, hi, .inr hk, rfl⟩
      | some j =>
        rw [isBlocked_cons hi hks] at hopen
        obtain ⟨p, k', ks', r', entries', rfl, hp, hr', hlast, hrun⟩ :=
          ih hks fun hj => hopen ⟨j, hk, hj⟩
        refine ⟨k :: p, k', ks', r', entries', rfl, ?_, hr', hlast, ?_⟩
        · rw [find?_cons hi, hk]
          exact hp
        · rw [assignAt_cons x _ k hks, Action.bind_of_pure (enter_of_some hi hk)]
          exact hrun

/-- Mappings that have been made, each with one entry, lead to an item. -/
inductive IsChain (m : Memory) (x : Item) : Item → List Text → Prop where
  | nil : IsChain m x x []
  | cons {r : Nat} {k : Text} {j : Item} {ks : List Text} :
    m.mapping? (.ref r) = some [(.text k, j)] → IsChain m x j ks → IsChain m x (.ref r) (k :: ks)

/-- In a mapping that has just been made, a walk makes a chain. -/
theorem exists_chain (x : Item) (hnames : names ≠ []) (hlength : m.objects.length = r + 1)
    (hempty : m.mapping? (.ref r) = some []) :
    ∃ m', assignAt x (.ref r) names m = (pure (), m') ∧ IsChain m' x (.ref r) names ∧
      (∀ q < r, m'.object? q = m.object? q) ∧ m'.depths = m.depths := by
  induction names generalizing m r with
  | nil => exact absurd rfl hnames
  | cons k ks ih =>
    by_cases hks : ks = []
    · subst hks
      exact ⟨_, putUnder_of_mapping? hempty k x, .cons (mapping?_putAt hempty _ _) .nil,
        fun q hq => object?_putAt_of_ne (Nat.ne_of_lt hq) m _ _, depths_putAt _ _ _ _⟩
    · obtain ⟨hroot, hmade, hsame, hlength', hdepths⟩ := object?_madeUnder hempty k
      rw [hlength] at hroot hmade hsame
      obtain ⟨m', hrun, hchain, hframe, hdepths'⟩ :=
        ih hks (hlength'.trans (congrArg (· + 1) hlength)) (mapping?_ref_eq_some_iff.2 hmade)
      refine ⟨m', ?_, .cons ?_ hchain, fun q hq => ?_, hdepths'.trans hdepths⟩
      · rw [assignAt_cons x _ k hks, Action.bind_of_pure (enter_of_none hempty rfl), hlength]
        exact hrun
      · rw [mapping?_congr (hframe r (Nat.lt_succ_self r)), hroot]
        rfl
      · rw [hframe q (Nat.lt_succ_of_lt hq), hsame q (Nat.lt_succ_of_lt hq) (Nat.ne_of_lt hq)]

/-- What has been put under names into a mapping: it has one more entry, or another one, which leads
    to the item; and nothing else that was there has changed. -/
structure HasPutIn (m m' : Memory) (r : Nat) (entries : Mapping Item) (k : Text) (ks : List Text)
    (x j : Item) : Prop where
  mapping?_eq : m'.mapping? (.ref r) = some (entries.put (.text k) j)
  chain : IsChain m' x j ks
  frame : ∀ q < m.objects.length, q ≠ r → m'.object? q = m.object? q
  depths_eq : m'.depths = m.depths

theorem exists_hasPutIn (x : Item) (hr : m.mapping? (.ref r) = some entries)
    (hlast : ks = [] ∨ entries.getText? k = none) :
    ∃ m' j, assignAt x (.ref r) (k :: ks) m = (pure (), m') ∧ HasPutIn m m' r entries k ks x j := by
  by_cases hks : ks = []
  · subst hks
    exact ⟨_, x, putUnder_of_mapping? hr k x, mapping?_putAt hr _ _, .nil,
      fun q _ hq => object?_putAt_of_ne hq m _ _, depths_putAt _ _ _ _⟩
  · have hk : entries.getText? k = none := hlast.resolve_left hks
    have hlt : r < m.objects.length := lt_length_of_object? (mapping?_ref_eq_some_iff.1 hr)
    obtain ⟨hroot, hmade, hsame, hlength, hdepths⟩ := object?_madeUnder hr k
    obtain ⟨m', hrun, hchain, hframe, hdepths'⟩ :=
      exists_chain x hks hlength (mapping?_ref_eq_some_iff.2 hmade)
    refine ⟨m', .ref m.objects.length, ?_, ?_, hchain, fun q hq hqr => ?_, hdepths'.trans hdepths⟩
    · rw [assignAt_cons x _ k hks, Action.bind_of_pure (enter_of_none hr hk)]
      exact hrun
    · rw [mapping?_congr (hframe r hlt), hroot]
    · rw [hframe q hq, hsame q hq hqr]

/-! ## Chains -/

theorem IsChain.find?_eq (h : IsChain m x j ks) : m.find? j ks = some x := by
  induction h with
  | nil => rfl
  | cons hr _ ih =>
    rw [find?_cons hr, Mapping.getText?, Mapping.get?, if_pos (Scalar.same_self _)]
    exact ih

/-- Names that lead apart from a chain lead nowhere. -/
theorem IsChain.find?_of_apart (h : IsChain m x j ks) {other : List Text}
    (hother : ¬ ks <+: other) (hks : ¬ other <+: ks) : m.find? j other = none := by
  induction h generalizing other with
  | nil => exact absurd List.nil_prefix hother
  | @cons r k j ks hr _ ih =>
    cases other with
    | nil => exact absurd List.nil_prefix hks
    | cons k' other =>
      rw [find?_cons hr, Mapping.getText?, Mapping.get?]
      by_cases hk : k = k'
      · subst hk
        rw [List.prefix_cons_inj] at hother hks
        rw [if_pos (Scalar.same_self _)]
        exact ih hother hks
      · have hsame : ¬ (Scalar.text k).same (.text k') = true := by
          rw [Mapping.same_text_iff, Scalar.text.injEq]
          exact hk
        rw [if_neg hsame]
        rfl

/-- On the way along a chain there are mappings with one entry. -/
theorem IsChain.exists_mapping (h : IsChain m x j (p ++ k :: ks)) :
    ∃ r j', m.find? j p = some (.ref r) ∧ m.mapping? (.ref r) = some [(.text k, j')] := by
  induction p generalizing j with
  | nil =>
    cases h with
    | cons hr _ => exact ⟨_, _, rfl, hr⟩
  | cons k₀ p ih =>
    cases h with
    | cons hr hrest =>
      obtain ⟨r, j', hj, hentry⟩ := ih hrest
      refine ⟨r, j', ?_, hentry⟩
      rw [find?_cons hr, Mapping.getText?, Mapping.get?, if_pos (Scalar.same_self _)]
      exact hj

/-! ## What is left -/

/-- A mapping that is at the end of names, and nowhere else: neither elsewhere below an item nor
    below another one. -/
structure IsSite (m : Memory) (i x : Item) (p : List Text) (r : Nat) (entries : Mapping Item) :
    Prop where
  closed : m.IsClosed
  isBelow : i.IsBelow m.objects.length
  isBelow_item : x.IsBelow m.objects.length
  find?_eq : m.find? i p = some (.ref r)
  mapping?_eq : m.mapping? (.ref r) = some entries
  once : m.IsReachedOnce i r
  apart : ¬ m.Reaches x r

namespace HasPutIn

variable (h : IsSite m i x p r entries) (hput : HasPutIn m m' r entries k ks x j)
include h hput

/-- What does not lead to the mapping is as it was. -/
theorem isSame {j' : Item} (hbelow : j'.IsBelow m.objects.length) (hj' : ¬ m.Reaches j' r) :
    IsSame m m' j' :=
  fun q hq => hput.frame q (h.closed.lt_length hbelow hq) fun hqr => hj' (hqr ▸ hq)

/-- Names lead where they did if they do not go on from the mapping. -/
theorem find?_of_not_through {i' : Item} (hi' : i'.IsBelow m.objects.length)
    (hnot : ∀ q, q <+: names → q ≠ names → m.find? i' q ≠ some (.ref r)) :
    m'.find? i' names = m.find? i' names := by
  induction names generalizing i' with
  | nil => rfl
  | cons k₀ names ih =>
    have hmapping : m'.mapping? i' = m.mapping? i' := by
      cases i' with
      | scalar s => rfl
      | ref q =>
        refine mapping?_congr (hput.frame q hi' ?_)
        rintro rfl
        exact hnot [] List.nil_prefix nofun rfl
    cases hentries : m.mapping? i' with
    | none =>
      rw [find?_cons_of_none hentries, find?_cons_of_none (hmapping.trans hentries)]
    | some entries' =>
      rw [find?_cons hentries, find?_cons (hmapping.trans hentries)]
      cases hget : entries'.getText? k₀ with
      | none => rfl
      | some j' =>
        have hj' : m.find? i' [k₀] = some j' := by
          rw [find?_cons hentries, hget]
          rfl
        have hbelow : j'.IsBelow m.objects.length := by
          rw [find?_eq_at?] at hj'
          exact h.closed.isBelow_of_at? hi' hj'
        refine ih hbelow fun q hq hne hr => ?_
        have hlonger : m.find? i' (k₀ :: q) = some (.ref r) := by
          rw [find?_cons hentries, hget]
          exact hr
        exact hnot (k₀ :: q) ((List.prefix_cons_inj k₀).2 hq)
          (fun heq => hne (List.cons.inj heq).2) hlonger

/-- The mapping is where it was. -/
theorem find?_site : m'.find? i p = some (.ref r) := by
  -- a part of the way that led there, too, would be another way
  rw [hput.find?_of_not_through h h.isBelow fun q hq hne hr => ?_, h.find?_eq]
  have hback := h.once.prefix_names hr h.find?_eq (reaches_self m r)
  exact hne (hq.eq_of_length_le hback.length_le)

/-- The item is where it has been put. -/
theorem find?_key : m'.find? i (p ++ k :: ks) = some x := by
  rw [find?_append, hput.find?_site h, Option.bind_some, find?_cons hput.mapping?_eq,
    Mapping.getText?_put_same]
  exact hput.chain.find?_eq

end HasPutIn

/-- Beside the way to the mapping, nothing leads to it. -/
theorem IsSite.not_reaches_of_beside (h : IsSite m i x p r entries) {p₁ c : List Text} {q : Nat}
    {old : Mapping Item} {other : Scalar} {j' : Item} (hp : p = p₁ ++ c)
    (hq : m.find? i p₁ = some (.ref q)) (hold : m.mapping? (.ref q) = some old)
    (hother : ∀ k₁ c', c = k₁ :: c' → other ≠ .text k₁) (hget : old.get? other = some j') :
    ¬ m.Reaches j' r := by
  intro hreach
  have hj' : m.at? i (p₁.map .text ++ [other]) = some j' := by
    rw [at?_append, ← find?_eq_at?, hq, Option.bind_some, at?_cons_of_some hold, hget]
    rfl
  have hsite := h.find?_eq
  rw [find?_eq_at?, hp, List.map_append] at hsite
  have hpre := h.once.prefix_of_at? hsite hj' hreach
  rw [List.map_append, List.map_append, List.prefix_append_right_inj] at hpre
  cases c with
  | nil => cases List.prefix_nil.1 hpre
  | cons k₁ c =>
    have hstanding : other.standing = (Scalar.text k₁).standing :=
      (List.cons_prefix_cons.1 hpre).1
    exact hother k₁ c rfl (Mapping.same_text_iff.1 (Scalar.same_iff.2 hstanding))

/-- What is above a name: a mapping that has the entries that were there beside this one. -/
def IsAbove (m m' : Memory) (i : Item) (p : List Text) (k : Text) : Prop :=
  ∃ q entries', m'.find? i p = some (.ref q) ∧ m'.mapping? (.ref q) = some entries' ∧
    ((∃ old, m.find? i p = some (.ref q) ∧ m.mapping? (.ref q) = some old ∧
        ∀ other, other ≠ .text k → entries'.get? other = old.get? other ∧
          ∀ j, old.get? other = some j → IsSame m m' j) ∨
      (m.find? i p = none ∧ ∀ other, other ≠ .text k → entries'.get? other = none))

namespace HasPutIn

variable (h : IsSite m i x p r entries) (hput : HasPutIn m m' r entries k ks x j)
include h hput

/-- Where neither names lead through the others, there is what was there. -/
theorem find?_of_apart (hlast : ks = [] ∨ entries.getText? k = none) {other : List Text}
    (hother : ¬ p ++ k :: ks <+: other) (hkey : ¬ other <+: p ++ k :: ks) :
    m'.find? i other = m.find? i other ∧
      ∀ j', m.find? i other = some j' → IsSame m m' j' := by
  -- what is found leads back to the mapping only on the way there
  have hsame : ∀ j', m.find? i other = some j' → IsSame m m' j' := fun j' hj' => by
    have hbelow : j'.IsBelow m.objects.length := by
      rw [find?_eq_at?] at hj'
      exact h.closed.isBelow_of_at? h.isBelow hj'
    refine hput.isSame h hbelow fun hreach => hkey ?_
    exact (h.once.prefix_names h.find?_eq hj' hreach).trans (List.prefix_append _ _)
  refine ⟨?_, hsame⟩
  by_cases hthrough : ∃ q, q <+: other ∧ q ≠ other ∧ m.find? i q = some (.ref r)
  · obtain ⟨q, ⟨rest, rfl⟩, hne, hq⟩ := hthrough
    have hqp : q = p := by
      have hpre := h.once.prefix_names h.find?_eq hq (reaches_self m r)
      have hpre' := h.once.prefix_names hq h.find?_eq (reaches_self m r)
      exact hpre.eq_of_length_le hpre'.length_le
    subst hqp
    rw [List.prefix_append_right_inj] at hother hkey
    rw [find?_append, find?_append, hput.find?_site h, h.find?_eq, Option.bind_some,
      Option.bind_some]
    cases rest with
    | nil => exact absurd (List.append_nil q).symm hne
    | cons k' rest =>
      rw [find?_cons hput.mapping?_eq, find?_cons h.mapping?_eq]
      by_cases hk : k = k'
      · subst hk
        rw [List.prefix_cons_inj] at hother hkey
        -- under this name there was nothing, and there is a chain that leads elsewhere
        have hks : ks ≠ [] := fun hnil => hother (hnil ▸ List.nil_prefix)
        rw [Mapping.getText?_put_same, hlast.resolve_left hks]
        exact hput.chain.find?_of_apart hother hkey
      · rw [Mapping.getText?_put_other _ _ hk]
        cases hget : entries.getText? k' with
        | none => rfl
        | some j' =>
          have hj' : m.find? i (q ++ [k']) = some j' := by
            rw [find?_append, h.find?_eq, Option.bind_some, find?_cons h.mapping?_eq, hget]
            rfl
          have hreach : ¬ m.Reaches j' r := fun hreach => by
            have hle := (h.once.prefix_names h.find?_eq hj' hreach).length_le
            rw [List.length_append, List.length_singleton] at hle
            omega
          have hbelow := h.closed.isBelow_of_get? h.mapping?_eq hget
          exact (hput.isSame h hbelow hreach).find?_eq rest
  · exact hput.find?_of_not_through h h.isBelow fun q hq hne hr => hthrough ⟨q, hq, hne, hr⟩

/-- Beside the name under which something is put, its mapping has what it had. -/
theorem isAbove_site : IsAbove m m' i p k := by
  refine ⟨r, _, hput.find?_site h, hput.mapping?_eq,
    .inl ⟨entries, h.find?_eq, h.mapping?_eq, fun other hother =>
      ⟨Mapping.get?_put_of_ne_text _ _ hother, ?_⟩⟩⟩
  intro j' hj'
  refine hput.isSame h (h.closed.isBelow_of_get? h.mapping?_eq hj') ?_
  exact h.not_reaches_of_beside (List.append_nil p).symm h.find?_eq h.mapping?_eq nofun hj'

/-- A mapping on the way to the one that changes is as it was. -/
theorem isAbove_of_before {p₁ c : List Text} {k₁ : Text} (hp : p = p₁ ++ k₁ :: c) :
    IsAbove m m' i p₁ k₁ := by
  have hsite := h.find?_eq
  rw [hp, find?_append, Option.bind_eq_some_iff] at hsite
  obtain ⟨j₁, hj₁, hon⟩ := hsite
  cases hold : m.mapping? j₁ with
  | none => rw [find?_cons_of_none hold] at hon; cases hon
  | some old =>
    obtain ⟨q, rfl, -⟩ := mapping?_eq_some_iff.1 hold
    -- no part of the way to it leads to the one that changes
    have hshort : ∀ p₂, p₂ <+: p₁ → m.find? i p₂ ≠ some (.ref r) := by
      intro p₂ hp₂ hr
      have hle := (h.once.prefix_names hr h.find?_eq (reaches_self m r)).length_le
      have hle' := hp₂.length_le
      rw [hp, List.length_append, List.length_cons] at hle
      omega
    have hqr : q ≠ r := by
      rintro rfl
      exact hshort p₁ (List.prefix_refl p₁) hj₁
    have hlt : q < m.objects.length := lt_length_of_object? (mapping?_ref_eq_some_iff.1 hold)
    refine ⟨q, old, ?_, ?_, .inl ⟨old, hj₁, hold, fun other hother => ⟨rfl, fun j' hj' => ?_⟩⟩⟩
    · rw [hput.find?_of_not_through h h.isBelow fun p₂ hp₂ _ => hshort p₂ hp₂, hj₁]
    · rw [mapping?_congr (hput.frame q hlt hqr), hold]
    · refine hput.isSame h (h.closed.isBelow_of_get? hold hj') ?_
      refine h.not_reaches_of_beside hp hj₁ hold (fun k₂ c' hc => ?_) hj'
      rw [← (List.cons.inj hc).1]
      exact hother

/-- A mapping that has been made has one entry. -/
theorem isAbove_of_after (hk : entries.getText? k = none) {p₂ ks₁ : List Text} {k₁ : Text}
    (hks : ks = p₂ ++ k₁ :: ks₁) : IsAbove m m' i (p ++ k :: p₂) k₁ := by
  have hchain := hput.chain
  rw [hks] at hchain
  obtain ⟨q, j', hq, hentry⟩ := hchain.exists_mapping
  have hothers : ∀ other, other ≠ .text k₁ → Mapping.get? [(.text k₁, j')] other = none :=
    fun _ hother => Mapping.get?_put_of_ne_text [] j' hother
  refine ⟨q, _, ?_, hentry, .inr ⟨?_, hothers⟩⟩
  · rw [find?_append, hput.find?_site h, Option.bind_some, find?_cons hput.mapping?_eq,
      Mapping.getText?_put_same]
    exact hq
  · rw [find?_append, h.find?_eq, Option.bind_some, find?_cons h.mapping?_eq, hk]
    rfl

/-- On the way there are mappings, each with the entries that it had beside the name that leads
    on. -/
theorem isAbove (hlast : ks = [] ∨ entries.getText? k = none) {p₁ ks₁ : List Text} {k₁ : Text}
    (hsplit : p ++ k :: ks = p₁ ++ k₁ :: ks₁) : IsAbove m m' i p₁ k₁ := by
  rcases List.append_eq_append_iff.1 hsplit with ⟨a, rfl, ha⟩ | ⟨c, hp, hc⟩
  · cases a with
    | nil =>
      obtain ⟨rfl, rfl⟩ := List.cons.inj ha
      rw [List.append_nil]
      exact hput.isAbove_site h
    | cons k₂ a =>
      obtain ⟨rfl, hks⟩ := List.cons.inj ha
      refine hput.isAbove_of_after h (hlast.resolve_left fun hnil => ?_) hks
      rw [hnil] at hks
      exact List.cons_ne_nil _ _ (List.append_eq_nil_iff.1 hks.symm).2
  · cases c with
    | nil =>
      obtain ⟨rfl, rfl⟩ := List.cons.inj hc
      rw [List.append_nil] at hp
      subst hp
      exact hput.isAbove_site h
    | cons k₂ c =>
      obtain ⟨rfl, -⟩ := List.cons.inj hc
      exact hput.isAbove_of_before h hp

end HasPutIn

end Tracewright.Memory
