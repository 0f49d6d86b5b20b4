/-
  Tracewright.Proofs.Value.Copies

  All that one can come to from an item, again in another memory.  A document
  that has been taken up is a copy, its objects further up; what no change has
  touched is a copy in its own place.  Ways and paths lead to the same things
  there, and it looks the same.

    * `Memory.IsCopied`    — all that one can come to stands so many places
                             further up.
    * `Memory.IsSame`      — it is what it was.
    * `isCopied_of_document` and its companions
                           — a document, in any memory that has its objects.
-/
import Tracewright.Proofs.Value.Ways

namespace Tracewright.Memory

variable {m m' : Memory} {i j : Item} {r q n : Nat} {o : Object} {p : List Scalar}

/-! ## Copies -/

theorem shift_zero (i : Item) : i.shift 0 = i := by
  cases i <;> rfl

theorem object_shift_zero (o : Object) : o.shift 0 = o := by
  have hitems (items : List Item) : items.map (Item.shift 0) = items := by
    rw [funext shift_zero]
    exact List.map_id' items
  cases o with
  | list items => exact congrArg Object.list (hitems items)
  | tuple items => exact congrArg Object.tuple (hitems items)
  | set items => rfl
  | map entries =>
    have hentries : (entries.map fun e => (e.1, e.2.shift 0)) = entries := by
      simp only [shift_zero]
      exact List.map_id' entries
    exact congrArg Object.map hentries

theorem items_shift (n : Nat) (o : Object) : (o.shift n).items = o.items.map (Item.shift n) := by
  cases o with
  | map entries => simp only [Object.shift, Object.items, List.map_map, Function.comp_def]
  | _ => rfl

/-- All that one can come to stands in another memory as well, each object `n` places further up. -/
def IsCopied (m m' : Memory) (n : Nat) (i : Item) : Prop :=
  ∀ q, m.Reaches i q → m'.object? (q + n) = (m.object? q).map (Object.shift n)

/-- All that one can come to is what it was. -/
def IsSame (m m' : Memory) (i : Item) : Prop :=
  ∀ q, m.Reaches i q → m'.object? q = m.object? q

theorem IsSame.isCopied (h : IsSame m m' i) : IsCopied m m' 0 i := fun q hq => by
  rw [Nat.add_zero, h q hq, funext object_shift_zero, Option.map_id']

namespace IsCopied

theorem of_mem (h : IsCopied m m' n (.ref r)) (ho : m.object? r = some o) (hi : i ∈ o.items) :
    IsCopied m m' n i :=
  fun q hq => h q (reaches_of_mem ho hi hq)

theorem object?_eq (h : IsCopied m m' n (.ref r)) :
    m'.object? (r + n) = (m.object? r).map (Object.shift n) :=
  h r (reaches_self m r)

theorem mapping?_eq (h : IsCopied m m' n i) :
    m'.mapping? (i.shift n) = (m.mapping? i).map (Mapping.mapValues (Item.shift n)) := by
  cases i with
  | scalar s => rfl
  | ref r =>
    rw [Item.shift, mapping?, mapping?, h.object?_eq]
    cases m.object? r with
    | none => rfl
    | some o => cases o <;> rfl

/-- The ways lead to the copies. -/
theorem go?_eq (h : IsCopied m m' n i) (way : List Nat) :
    m'.go? (i.shift n) way = (m.go? i way).map (Item.shift n) := by
  induction way generalizing i with
  | nil => cases i <;> rfl
  | cons place way ih =>
    cases i with
    | scalar s => rfl
    | ref r =>
      rw [Item.shift, go?, go?, h.object?_eq]
      cases ho : m.object? r with
      | none => rfl
      | some o =>
        rw [Option.map_some, Option.bind_some, Option.bind_some, items_shift, List.getElem?_map]
        cases hj : o.items[place]? with
        | none => rfl
        | some j => exact ih (h.of_mem ho (List.mem_of_getElem? hj))

/-- One can come to the copies of what one could come to, and to nothing else. -/
theorem reaches_iff (h : IsCopied m m' n i) :
    m'.Reaches (i.shift n) q ↔ ∃ r, q = r + n ∧ m.Reaches i r := by
  constructor
  · rintro ⟨way, hway⟩
    rw [h.go?_eq, Option.map_eq_some_iff] at hway
    obtain ⟨j, hj, hq⟩ := hway
    cases j with
    | scalar s => cases hq
    | ref r => exact ⟨r, (Item.ref.inj hq).symm, way, hj⟩
  · rintro ⟨r, rfl, way, hway⟩
    exact ⟨way, by rw [h.go?_eq, hway]; rfl⟩

/-- The paths lead to the copies. -/
theorem at?_eq (h : IsCopied m m' n i) (p : List Scalar) :
    m'.at? (i.shift n) p = (m.at? i p).map (Item.shift n) := by
  induction p generalizing i with
  | nil => rfl
  | cons k p ih =>
    rw [at?, at?, h.mapping?_eq]
    cases hentries : m.mapping? i with
    | none => rfl
    | some entries =>
      rw [Option.map_some, Option.bind_some, Option.bind_some, Mapping.get?_mapValues]
      cases hget : entries.get? k with
      | none => rfl
      | some j =>
        obtain ⟨r, rfl, ho⟩ := mapping?_eq_some_iff.1 hentries
        obtain ⟨e, he, -, rfl⟩ := Mapping.exists_mem_of_get? hget
        exact ih (h.of_mem ho (List.mem_map_of_mem he))

theorem of_at? (h : IsCopied m m' n i) (hj : m.at? i p = some j) : IsCopied m m' n j :=
  fun q hq => h q (reaches_of_at? hj hq)

theorem mappingAt?_eq (h : IsCopied m m' n i) (p : List Scalar) :
    m'.mappingAt? (i.shift n) p =
      (m.mappingAt? i p).map (Mapping.mapValues (Item.shift n)) := by
  rw [mappingAt?, mappingAt?, h.at?_eq]
  cases hj : m.at? i p with
  | none => rfl
  | some j => exact (h.of_at? hj).mapping?_eq

/-- The copy looks the same, however deep one looks. -/
theorem seeWithin_eq (h : IsCopied m m' n i) (depth : Nat) (path : List Nat) :
    m'.seeWithin depth (path.map (· + n)) (i.shift n) = m.seeWithin depth path i := by
  induction depth generalizing i path with
  | zero => rfl
  | succ depth ih =>
    cases i with
    | scalar s => rfl
    | ref r =>
      have hmem : r + n ∈ path.map (· + n) ↔ r ∈ path := by
        simp
      simp only [Item.shift, seeWithin, h.object?_eq]
      cases ho : m.object? r with
      | none => rfl
      | some o =>
        -- what the object holds has been copied, too
        have hparts : ∀ j ∈ o.items, m'.seeWithin depth ((r + n) :: path.map (· + n)) (j.shift n) =
            m.seeWithin depth (r :: path) j := fun j hj => ih (h.of_mem ho hj) (r :: path)
        cases o with
        | list items =>
          have hseen : items.map (m'.seeWithin depth ((r + n) :: path.map (· + n)) ∘
              Item.shift n) = items.map (m.seeWithin depth (r :: path)) :=
            List.map_congr_left hparts
          simp only [Option.map_some, Object.shift, hmem, List.map_map, hseen]
        | tuple items =>
          have hseen : items.map (m'.seeWithin depth ((r + n) :: path.map (· + n)) ∘
              Item.shift n) = items.map (m.seeWithin depth (r :: path)) :=
            List.map_congr_left hparts
          simp only [Option.map_some, Object.shift, hmem, List.map_map, hseen]
        | set items => rfl
        | map entries =>
          have hseen : entries.map ((fun e => (e.1, m'.seeWithin depth
                ((r + n) :: path.map (· + n)) e.2)) ∘ fun e => (e.1, e.2.shift n)) =
              entries.map fun e => (e.1, m.seeWithin depth (r :: path) e.2) :=
            List.map_congr_left fun e he =>
              congrArg (Prod.mk e.1) (hparts e.2 (List.mem_map_of_mem he))
          simp only [Option.map_some, Object.shift, hmem, List.map_map, hseen]

end IsCopied

/-! ## What stays -/

namespace IsSame

theorem of_at? (h : IsSame m m' i) (hj : m.at? i p = some j) : IsSame m m' j :=
  fun q hq => h q (reaches_of_at? hj hq)

theorem mapping?_eq (h : IsSame m m' i) : m'.mapping? i = m.mapping? i := by
  cases i with
  | scalar s => rfl
  | ref r => exact mapping?_congr (h r (reaches_self m r))

theorem at?_eq (h : IsSame m m' i) (p : List Scalar) : m'.at? i p = m.at? i p := by
  have hcopy := h.isCopied.at?_eq p
  rwa [shift_zero, funext shift_zero, Option.map_id'] at hcopy

theorem mappingAt?_eq (h : IsSame m m' i) (p : List Scalar) :
    m'.mappingAt? i p = m.mappingAt? i p := by
  rw [mappingAt?, mappingAt?, h.at?_eq]
  cases hj : m.at? i p with
  | none => rfl
  | some j => exact (h.of_at? hj).mapping?_eq

theorem find?_eq (h : IsSame m m' i) (names : List Text) :
    m'.find? i names = m.find? i names := by
  rw [find?_eq_at?, find?_eq_at?, h.at?_eq]

theorem go?_eq (h : IsSame m m' i) (way : List Nat) : m'.go? i way = m.go? i way := by
  have hcopy := h.isCopied.go?_eq way
  rwa [shift_zero, funext shift_zero, Option.map_id'] at hcopy

theorem reaches_iff (h : IsSame m m' i) : m'.Reaches i q ↔ m.Reaches i q := by
  simp only [Reaches, h.go?_eq]

theorem isReachedOnce_iff (h : IsSame m m' i) : m'.IsReachedOnce i q ↔ m.IsReachedOnce i q := by
  simp only [IsReachedOnce, h.go?_eq]

/-- It looks the same. -/
theorem see_eq (h : IsSame m m' i) (hdepths : m'.depths = m.depths) : m'.see i = m.see i := by
  have hcopy := h.isCopied.seeWithin_eq (m.depths.showing + 1) []
  rw [shift_zero] at hcopy
  rw [see, see, hdepths]
  exact hcopy

end IsSame

/-! ## Documents -/

section Documents

variable {d : Document}

/-- Where its objects have moved up together, a document has been copied. -/
theorem isCopied_of_document (depths : Depths)
    (hmoved : ∀ r < d.objects.length, m.object? (r + n) = d.objects[r]?.map (Object.shift n))
    (hi : i.IsBelow d.objects.length) : IsCopied (d.memory depths) m n i := by
  have hclosed : (d.memory depths).IsClosed := d.closed
  exact fun q hq => hmoved q (hclosed.lt_length hi hq)

/-- A mapping of a document has the same keys there. -/
theorem mapping?_shift (depths : Depths)
    (hmoved : ∀ r < d.objects.length, m.object? (r + n) = d.objects[r]?.map (Object.shift n))
    (hi : i.IsBelow d.objects.length) :
    m.mapping? (i.shift n) =
      ((d.memory depths).mapping? i).map (Mapping.mapValues (Item.shift n)) :=
  (isCopied_of_document depths hmoved hi).mapping?_eq

/-- A path leads to the same place there, and not out of the document. -/
theorem find?_shift (depths : Depths)
    (hmoved : ∀ r < d.objects.length, m.object? (r + n) = d.objects[r]?.map (Object.shift n))
    (hi : i.IsBelow d.objects.length) (names : List Text) :
    m.find? (i.shift n) names = ((d.memory depths).find? i names).map (Item.shift n) ∧
      ∀ j, (d.memory depths).find? i names = some j → j.IsBelow d.objects.length := by
  have hclosed : (d.memory depths).IsClosed := d.closed
  rw [find?_eq_at?, find?_eq_at?]
  exact ⟨(isCopied_of_document depths hmoved hi).at?_eq _, fun j hj =>
    hclosed.isBelow_of_at? hi hj⟩

/-- What one sees of the document, in any memory that has its objects. -/
theorem see_shift
    (hmoved : ∀ r < d.objects.length, m.object? (r + n) = d.objects[r]?.map (Object.shift n))
    (hi : i.IsBelow d.objects.length) :
    m.see (i.shift n) = (d.memory m.depths).see i :=
  (isCopied_of_document m.depths hmoved hi).seeWithin_eq _ []

end Documents

end Tracewright.Memory
