/-
  Tracewright.Proofs.Program.Selected

  A program depends on the system calls that are selected, and on nothing
  else of a catalog: each of them has one handler, in the place that its
  number gives it.

    * `assemble_eq_of_select` — catalogs with one selection have one program.
    * `result_assemble_eq_ok` — a program is the text of its pieces.
    * `result_assemble_add`   — the program with one more call.
    * `result_assemble_all`   — all calls, with and without their common exit.
    * `assemble_of_selected`  — these facts for catalogs made from lists.
-/
import Tracewright.Program.Attach
import Tracewright.Proofs.Program.Listing
import Tracewright.Proofs.Syscall.Catalog

namespace Tracewright.Assembly

variable {source : Source Run} {m : Mode} {c c' : Catalog} {s : Selection}

/-! ## One selection, one program -/

/-- Assembling and generating make the same of two catalogs. -/
def Agree (source : Source Run) (m : Mode) (own : Int) (c c' : Catalog) : Prop :=
  assemble source c' m = assemble source c m ∧ generate source c' m own = generate source c m own

/-- What is assembled depends on the selection that the expression asks for. -/
theorem assemble_eq_of_select
    (h : ∀ s, Selection.ofName? (m.expression.getD Selection.usualName) = some s →
      c'.select s.mask = c.select s.mask) :
    assemble source c' m = assemble source c m := by
  refine Run.bind_congr_of_ok (x := Selection.resolve m.expression) fun s hs => ?_
  have hname : Selection.ofName? (m.expression.getD Selection.usualName) = some s := by
    rw [Selection.result_resolve] at hs
    cases hname : Selection.ofName? (m.expression.getD Selection.usualName) with
    | none => rw [hname] at hs; cases hs
    | some s' => rw [hname] at hs; cases hs; rfl
  -- the list of the catalog is used only through its selection
  have hselected : selected s.mask c'.toList = selected s.mask c.toList := h s hname
  rw [pieces, pieces, handlers, handlers, hselected]

theorem agree_of_select (own : Int)
    (h : ∀ s, Selection.ofName? (m.expression.getD Selection.usualName) = some s →
      c'.select s.mask = c.select s.mask) : Agree source m own c c' := by
  have hassemble : assemble source c' m = assemble source c m := assemble_eq_of_select h
  exact ⟨hassemble, by rw [generate, hassemble, generate]⟩

/-! ## The text of a program -/

/-- A program that has been assembled is the text of its pieces, and all of them were made. -/
theorem result_assemble_eq_ok
    (hs : Selection.ofName? (m.expression.getD Selection.usualName) = some s) {t : Text}
    (h : (assemble source c m).result = .ok t) :
    ∃ texts : List Text, results source c m s = texts.map .ok ∧ t = texts.flatten := by
  rw [result_assemble_of_some hs] at h
  cases hmade : (inTurn (pieces source m s c.toList)).result with
  | error e => rw [hmade] at h; cases h
  | ok texts =>
    rw [hmade] at h
    cases h
    refine ⟨texts, ?_, rfl⟩
    rw [← map_result_pieces]
    exact Run.result_inTurn_eq_ok hmade

/-- The program with one more call that is selected: its handler stands after the head and
    the handlers of the calls of smaller numbers, and nothing else changes. -/
theorem result_assemble_add {d : Descriptor} {t : Text} {b : Buffer}
    (hs : Selection.ofName? (m.expression.getD Selection.usualName) = some s)
    (hadd : c'.entries.Perm (d :: c.entries)) (hd : d.isSelected s.mask = true)
    (ht : (assemble source c m).result = .ok t)
    (hb : (Handler.select source d m).result = .ok b) :
    ∃ (top : Text) (hs : List Text) (v : Text),
      (head source m).result = .ok top ∧
        ((c.select s.mask).filter (·.number < d.number)).map
          (fun e => textResult (Handler.select source e m).result) = hs.map .ok ∧
        t = top ++ hs.flatten ++ v ∧
        (assemble source c' m).result = .ok (top ++ hs.flatten ++ b.text ++ v) := by
  obtain ⟨texts, hmade, rfl⟩ := result_assemble_eq_ok hs ht
  have hselect := Catalog.select_split (Catalog.number_ne_of_new hadd s.mask)
  -- the pieces fall into those before the new handler and those after it
  rw [results, hselect, List.map_append, List.cons_append, List.append_assoc, eq_comm,
    List.map_eq_cons_iff] at hmade
  obtain ⟨top, texts, rfl, htop, hmade⟩ := hmade
  obtain ⟨hs', rest, rfl, hlow, hrest⟩ := List.map_eq_append_iff.1 hmade
  refine ⟨top, hs', rest.flatten, htop.symm, hlow.symm, ?_, ?_⟩
  · rw [List.flatten_cons, List.flatten_append, List.append_assoc]
  · have hmade' : results source c' m s = (top :: hs' ++ b.text :: rest).map .ok := by
      rw [results, Catalog.select_add hadd hd, List.map_append, List.map_cons, hb, List.cons_append,
        List.append_assoc, List.cons_append, ← hlow, ← hrest, ← htop, List.map_append,
        List.map_cons, List.map_cons]
      rfl
    rw [result_assemble_of_ok hs hmade', List.flatten_append, List.flatten_cons, List.flatten_cons]
    simp only [List.append_assoc]

/-! ## All calls -/

/-- The common exit is what the program for all calls has after the handlers. -/
theorem result_assemble_all {e : Text} {t : Text}
    (hall : Text.lower (m.expression.getD Selection.usualName) = "all")
    (he : Text.lower e = "kp-all") (ht : (assemble source c m).result = .ok t) :
    ∃ (t' : Text) (b : Buffer),
      (assemble source c { m with expression := some e }).result = .ok t' ∧
        (source.loadVerbatim source.index.tracepoints).result = .ok b ∧
        t = t' ++ Store.dropReturns b.text := by
  have hs : Selection.ofName? (m.expression.getD Selection.usualName) = some ⟨0, true⟩ := by
    rw [Selection.ofName?, hall]
    rfl
  have hs' : Selection.ofName? ((some e).getD Selection.usualName) = some ⟨0, false⟩ := by
    rw [Selection.ofName?, Option.getD_some, he]
    rfl
  obtain ⟨texts, hmade, rfl⟩ := result_assemble_eq_ok hs ht
  -- without the common exit the pieces are the same, up to the last one
  have hpieces : results source c m ⟨0, true⟩ =
      results source c { m with expression := some e } ⟨0, false⟩ ++
        [(exitHandler source).result] := by
    rw [results, results, if_pos rfl, if_neg Bool.false_ne_true, List.append_nil]
    rfl
  rw [hpieces, eq_comm, List.map_eq_append_iff] at hmade
  obtain ⟨texts, bottoms, rfl, hmade, hbottom⟩ := hmade
  rw [List.map_eq_singleton_iff] at hbottom
  obtain ⟨bottom, rfl, hbottom⟩ := hbottom
  have hexit : (exitHandler source).result = .ok bottom := hbottom.symm
  obtain ⟨b, hload, hbottom⟩ := Run.result_bind_eq_ok (x := source.load _) hexit
  obtain ⟨b', hverbatim, hreturns⟩ := Run.result_bind_eq_ok (x := source.loadVerbatim _) hload
  cases hreturns
  cases hbottom
  refine ⟨texts.flatten, b', result_assemble_of_ok (m := { m with expression := some e }) hs'
    hmade.symm, hverbatim, ?_⟩
  rw [List.flatten_append, List.flatten_singleton]

/-! ## Catalogs from lists -/

/-- What is made of a list of calls of different numbers.  The order of the list does not
    matter, and neither does a further call that is not selected; one that is selected adds its
    handler in the place of its number.  The program for all calls is the program without their
    common exit, and that exit. -/
theorem assemble_of_selected (source : Source Run) (m : Mode) (own : Int) {ds : List Descriptor}
    (hds : (ds.map Descriptor.number).Nodup) :
    ∃ c, Catalog.ofList ds = .ok c ∧
      (∀ ds', ds'.Perm ds → ∃ c', Catalog.ofList ds' = .ok c' ∧ Agree source m own c c') ∧
      (∀ d, d.number ∉ ds.map Descriptor.number → ∃ c', c.add d = .ok c' ∧
        ((d.available = false ∨ ∀ s, Selection.ofName?
            (m.expression.getD Selection.usualName) = some s → d.fits s.mask = false) →
          Agree source m own c c') ∧
        (∀ s t b, Selection.ofName? (m.expression.getD Selection.usualName) = some s →
          d.available = true → d.fits s.mask = true → (assemble source c m).result = .ok t →
          (Handler.select source d m).result = .ok b →
            ∃ (top : Text) (hs : List Text) (v : Text),
              (head source m).result = .ok top ∧
                ((c.select s.mask).filter (·.number < d.number)).map
                  (fun e => textResult (Handler.select source e m).result) = hs.map .ok ∧
                t = top ++ hs.flatten ++ v ∧
                (assemble source c' m).result = .ok (top ++ hs.flatten ++ b.text ++ v))) ∧
      (∀ e t, Text.lower (m.expression.getD Selection.usualName) = "all" →
        Text.lower e = "kp-all" → (assemble source c m).result = .ok t →
          ∃ (t' : Text) (b : Buffer),
            (assemble source c { m with expression := some e }).result = .ok t' ∧
              (source.loadVerbatim source.index.tracepoints).result = .ok b ∧
              t = t' ++ Store.dropReturns b.text) := by
  obtain ⟨c, hc, hentries⟩ := Catalog.ofList_of_nodup hds
  refine ⟨c, hc, fun ds' hperm => ?_, fun d hd => ?_, fun e t => result_assemble_all⟩
  · have hds' : (ds'.map Descriptor.number).Nodup := (hperm.map _).nodup_iff.2 hds
    obtain ⟨c', hc', hentries'⟩ := Catalog.ofList_of_nodup hds'
    refine ⟨c', hc', agree_of_select own fun s _ => Catalog.select_eq_of_perm ?_⟩
    rw [hentries, hentries']
    exact hperm.filter _
  · rw [← hentries] at hd
    obtain ⟨c', hc', hentries'⟩ := Catalog.add_of_not_mem hd
    have hadd : c'.entries.Perm (d :: c.entries) := by
      rw [hentries']
      exact List.perm_append_singleton d c.entries
    refine ⟨c', hc', fun hnot => agree_of_select own fun s hs => ?_,
      fun s t b hs havailable hfits => result_assemble_add hs hadd ?_⟩
    -- a call that is not available or does not fit is not selected, and one that is and does is
    · apply Catalog.select_add_of_not hadd
      rcases hnot with hnot | hnot
      · rw [Descriptor.isSelected, hnot, Bool.false_and]
      · rw [Descriptor.isSelected, hnot s hs, Bool.and_false]
    · rw [Descriptor.isSelected, havailable, hfits, Bool.and_self]

/-- Two calls in either order, and a third one between them. -/
theorem assemble_of_selected_between :
    let ds : List Descriptor := [⟨5, "chdir", true, [0], 1⟩, ⟨-3, "read", true, [], 64⟩]
    let d : Descriptor := ⟨2, "rename", true, [0, 1], 3⟩
    let m : Mode := {}
    ∃ c c' c'' : Catalog, Catalog.ofList ds = .ok c ∧ Catalog.ofList ds.reverse = .ok c' ∧
      Agree Store.packaged.source m 4711 c c' ∧ c.add d = .ok c'' ∧
      ∃ u v : Text, (assemble Store.packaged.source c m).result = .ok (u ++ v) ∧
        (assemble Store.packaged.source c'' m).result = .ok (u ++
          Outline.handler m Marker.pidCheck.word d.name d ++ v) := by
  intro ds d m
  have hnumbers : (ds.map Descriptor.number).Nodup := by decide
  obtain ⟨c, hc, horder, hadd, -⟩ := assemble_of_selected Store.packaged.source m 4711 hnumbers
  obtain ⟨c', hc', hagree⟩ := horder ds.reverse ds.reverse_perm
  obtain ⟨c'', hc'', -, hnew⟩ := hadd d (by decide)
  have hs : Selection.ofName? (m.expression.getD Selection.usualName) = some ⟨0, true⟩ := by decide
  have hsmall : ∀ e ∈ d :: ds, e.number.natAbs < Nat.pow 10 9 := by decide
  have hentries : c.entries = ds := by
    obtain ⟨c₀, hc₀, hentries⟩ := Catalog.ofList_of_nodup hnumbers
    cases hc.symm.trans hc₀
    exact hentries
  have hwritable : ∀ e ∈ c.select 0, Numeral.isWritable e.number = true := by
    intro e he
    have hmem := (List.mem_filter.1 ((c.select_perm 0).mem_iff.1 he)).1
    rw [hentries] at hmem
    exact Numeral.isWritable_of_lt (hsmall e (List.mem_cons_of_mem d hmem))
  have hd : Numeral.isWritable d.number = true :=
    Numeral.isWritable_of_lt (hsmall d List.mem_cons_self)
  obtain ⟨top, hs', v, -, -, ht, ht'⟩ := hnew ⟨0, true⟩ _ _ hs rfl rfl
    (Outline.result_assemble hs hwritable) (Outline.result_select d m hd)
  refine ⟨c, c', c'', hc, hc', hagree, hc'', top ++ hs'.flatten, v, ?_, ht'⟩
  rw [← ht]
  exact Outline.result_assemble hs hwritable

end Tracewright.Assembly
