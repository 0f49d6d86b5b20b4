/-
  Tracewright.Proofs.Program.Simulation

  Programs are generated in steps of any kind.  What relates the steps of two
  kinds, one by one, relates what is generated in them.

    * `Simulation`       — a relation that goes on from step to step.
    * `Simulation.Match` — fragments are taken in steps that are related.
    * `Simulation.rel_generate`
                         — programs are generated in steps that are related.
-/
import Mathlib.Data.List.Forall2
import Tracewright.Program.Attach
import Tracewright.Proofs.Fragment.Check
import Tracewright.Proofs.Program.Assembly

namespace Tracewright

open Performer (perform telling)

/-- A relation between steps of two kinds that goes on from step to step. -/
structure Simulation (κ κ' : Type → Type) [Monad κ] [Performer κ] [Monad κ'] [Performer κ'] where
  Rel : ∀ {α : Type}, κ α → κ' α → Prop
  rel_pure : ∀ {α : Type} (a : α), Rel (pure a) (pure a)
  rel_bind : ∀ {α β : Type} {x : κ α} {x' : κ' α} {f : α → κ β} {f' : α → κ' β},
    Rel x x' → (∀ a, Rel (f a) (f' a)) → Rel (x >>= f) (x' >>= f')
  rel_perform : ∀ {α : Type} (x : Run α), Rel (perform x) (perform x)
  /-- After a run, only what it yields matters. -/
  rel_perform_bind : ∀ {α β : Type} {x : Run α} {f : α → κ β} {f' : α → κ' β},
    (∀ a, x.result = .ok a → Rel (f a) (f' a)) → Rel (perform x >>= f) (perform x >>= f')
  rel_telling : ∀ {α : Type} {x : κ α} {x' : κ' α} (tell : Failure → Run Unit),
    Rel x x' → Rel (telling x tell) (telling x' tell)

namespace Simulation

variable {κ κ' : Type → Type} [Monad κ] [Performer κ] [Monad κ'] [Performer κ']
  {S : Simulation κ κ'} {source : Source κ} {source' : Source κ'} {m : Mode}

/-- Two sources have one index, and the fragments it names are taken in related steps. -/
structure Match (S : Simulation κ κ') (source : Source κ) (source' : Source κ') : Prop where
  index : source'.index = source.index
  loads : ∀ name ∈ source.index.allFiles,
    S.Rel (source.loadVerbatim name) (source'.loadVerbatim name)

/-! ## Fragments -/

theorem Match.rel_load (h : S.Match source source') {name : Text}
    (hname : name ∈ source.index.allFiles) : S.Rel (source.load name) (source'.load name) :=
  S.rel_bind (h.loads name hname) fun _ => S.rel_pure _

theorem Match.rel_load_fixed (h : S.Match source source') {name : Text}
    (hname : name ∈ source.index.fixedFiles) : S.Rel (source.load name) (source'.load name) :=
  h.rel_load (Index.mem_allFiles_of_fixed hname)

/-! ## Handlers -/

theorem rel_fragment (h : S.Match source source') (d : Descriptor) (case : Case) :
    S.Rel (Handler.fragment source d m case) (Handler.fragment source' d m case) := by
  cases case with
  | fork =>
    rw [Handler.fragment, Handler.fragment, h.index]
    exact h.rel_load_fixed (by simp [Index.fixedFiles])
  | exit =>
    rw [Handler.fragment, Handler.fragment, h.index]
    exact h.rel_load_fixed (by simp [Index.fixedFiles])
  | general count =>
    rw [Handler.fragment, Handler.fragment, h.index, Index.handler_int]
    refine S.rel_perform_bind fun file hfile => ?_
    -- only a handler that is found is taken, and its file is on the list
    cases hhandler : source.index.handler? (count, m.policy) with
    | none => rw [hhandler] at hfile; cases hfile
    | some name =>
      have hname : name ∈ source.index.allFiles := Index.mem_allFiles.2 (.inr ⟨_, hhandler⟩)
      rw [hhandler] at hfile
      cases hfile
      exact S.rel_bind (h.rel_load hname) fun _ => S.rel_perform _

theorem rel_select (h : S.Match source source') (d : Descriptor) :
    S.Rel (Handler.select source d m) (Handler.select source' d m) :=
  S.rel_bind (S.rel_perform _) fun case => S.rel_bind (rel_fragment h d case) fun _ =>
    S.rel_perform _

theorem rel_handler (h : S.Match source source') (d : Descriptor) :
    S.Rel (Assembly.handler source m d) (Assembly.handler source' m d) :=
  S.rel_bind (S.rel_telling _ (rel_select h d)) fun _ => S.rel_pure _

/-! ## Pieces -/

theorem rel_head (h : S.Match source source') :
    S.Rel (Assembly.head source m) (Assembly.head source' m) := by
  rw [Assembly.head, Assembly.head, Assembly.definitions, Assembly.definitions, h.index]
  have hhead : source.index.head ∈ source.index.allFiles :=
    Index.mem_allFiles_of_fixed List.mem_cons_self
  refine S.rel_bind (h.loads _ hhead) fun b => S.rel_bind (S.rel_bind ?_ fun _ => S.rel_pure _)
    fun defs => S.rel_bind (S.rel_perform _) fun _ => S.rel_pure _
  exact h.rel_load_fixed (by simp [Index.fixedFiles])

theorem rel_exitHandler (h : S.Match source source') :
    S.Rel (Assembly.exitHandler source) (Assembly.exitHandler source') := by
  rw [Assembly.exitHandler, Assembly.exitHandler, h.index]
  exact S.rel_bind (h.rel_load_fixed (by simp [Index.fixedFiles])) fun _ => S.rel_pure _

theorem rel_pieces (h : S.Match source source') (s : Selection) (ds : List Descriptor) :
    List.Forall₂ S.Rel (Assembly.pieces source m s ds) (Assembly.pieces source' m s ds) := by
  have hhandlers : List.Forall₂ S.Rel (Assembly.handlers source m s.mask ds)
      (Assembly.handlers source' m s.mask ds) := by
    rw [Assembly.handlers, Assembly.handlers, List.forall₂_map_left_iff,
      List.forall₂_map_right_iff, List.forall₂_same]
    exact fun d _ => rel_handler h d
  have htracepoints : List.Forall₂ S.Rel (Assembly.tracepoints source s)
      (Assembly.tracepoints source' s) := by
    rw [Assembly.tracepoints, Assembly.tracepoints]
    split_ifs
    · exact .cons (rel_exitHandler h) .nil
    · exact .nil
  exact .cons (rel_head h) (List.rel_append hhandlers htracepoints)

theorem rel_inTurn {α : Type} {xs : List (κ α)} {xs' : List (κ' α)}
    (h : List.Forall₂ S.Rel xs xs') : S.Rel (inTurn xs) (inTurn xs') := by
  induction h with
  | nil => exact S.rel_pure []
  | cons hx _ ih =>
    exact S.rel_bind hx fun _ => S.rel_bind ih fun _ => S.rel_pure _

theorem rel_assemble (h : S.Match source source') (c : Catalog) :
    S.Rel (Assembly.assemble source c m) (Assembly.assemble source' c m) :=
  S.rel_bind (S.rel_perform _) fun s => S.rel_bind (rel_inTurn (rel_pieces h s _)) fun _ =>
    S.rel_bind (S.rel_perform _) fun _ => S.rel_pure _

/-! ## The last pass -/

theorem rel_pidCheck (h : S.Match source source') (own : Int) :
    S.Rel (Attach.pidCheck source m own) (Attach.pidCheck source' m own) := by
  rw [Attach.pidCheck, Attach.pidCheck, h.index]
  split
  · exact S.rel_bind (h.rel_load (Index.pidCheck_mem_allFiles _ _)) fun _ =>
      S.rel_bind (S.rel_perform _) fun _ => S.rel_perform _
  · exact S.rel_bind (S.rel_perform _) fun _ =>
      S.rel_bind (h.rel_load_fixed (by simp [Index.fixedFiles])) fun _ => S.rel_perform _

theorem rel_expandReads (h : S.Match source source') (program : Buffer) :
    S.Rel (Attach.expandReads source m program) (Attach.expandReads source' m program) := by
  rw [Attach.expandReads, Attach.expandReads, h.index]
  split
  case h_1 hblock =>
    exact S.rel_bind (h.rel_load (Index.block?_mem_allFiles hblock)) fun _ => S.rel_perform _
  case h_2 => exact S.rel_pure program

theorem rel_apply (h : S.Match source source') (own : Int) (text : Text) :
    S.Rel (Attach.apply source m own text) (Attach.apply source' m own text) :=
  S.rel_bind (rel_pidCheck h own) fun _ => S.rel_bind (rel_expandReads h _) fun _ =>
    S.rel_perform _

/-- From fragments that are taken in related steps programs are generated in related steps. -/
theorem rel_generate (h : S.Match source source') (c : Catalog) (m : Mode) (own : Int) :
    S.Rel (generate source c m own) (generate source' c m own) :=
  S.rel_bind (rel_assemble h c) fun text => rel_apply h own text

end Simulation

end Tracewright
