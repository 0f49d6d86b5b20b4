/-
  Tracewright.Fragment.Index

  Which file serves which purpose.

    * `Index`           — the file names; the handlers go by the number of
                          string arguments and the read policy.
    * `Index.handler`   — the handler for a count and a policy.
    * `Index.allFiles`  — every file name once.

  Reference: `TemplateIndex`, with `handler`, `pid_check_hook`,
  `repeated_read_block` and `all_files`.
-/
import Tracewright.Fragment.Marker
import Tracewright.Failure
import Tracewright.Sorting

namespace Tracewright

/-- What a handler is listed under. -/
abbrev HandlerKey := Int × ReadPolicy

namespace HandlerKey

/-- The place of a policy when policies are ordered by their words. -/
def rank : ReadPolicy → Nat
  | .fixed => 0
  | .full => 1
  | .fullConst => 2

/-- Keys are ordered by the count, then by the word of the policy. -/
def le (a b : HandlerKey) : Bool := a.1 < b.1 || (a.1 == b.1 && rank a.2 ≤ rank b.2)

end HandlerKey

/-- The file name of every fragment; of several handlers with one key the last counts. -/
structure Index where
  head : Text := "trace_head.c"
  definitions : Text := "trace.h"
  tracepoints : Text := "trace_tracepoints.c"
  fork : Text := "template_fork.c"
  exit : Text := "template_exit.c"
  pidCheckPlain : Text := "pid_check_ff_disabled_hook.c"
  pidCheckFamily : Text := "pid_check_ff_full_hook.c"
  pidCheckOwn : Text := "pid_own_hook.c"
  constBlock : Text := "macro_const_string_mode.c"
  fullBlock : Text := "macro_full_string_mode.c"
  handlers : List (HandlerKey × Text)
  deriving DecidableEq, Repr

namespace Index

/-! ## The usual names -/

/-- The usual file name of a handler; the policies of variable length share theirs. -/
def usualHandler (count : Nat) (policy : ReadPolicy) : Text :=
  if count = 0 then "template_0_str.c"
  else ("template_" : Text) ++ Numeral.decimal count
    ++ (if policy.isVariableLength then ("_str_full.c" : Text) else ("_str_fixed.c" : Text))

/-- A handler for every policy and every number of strings that one can capture. -/
def usualHandlers : List (HandlerKey × Text) :=
  ReadPolicy.all.flatMap fun policy =>
    (List.range (captureLimit + 1)).map fun (count : Nat) =>
      (((count : Int), policy), usualHandler count policy)

def usual : Index := { handlers := usualHandlers }

/-! ## Looking up -/

def handler? (x : Index) (key : HandlerKey) : Option Text := x.handlers.reverse.lookup key

/-- The handler for a number of string arguments under a policy.  A value that is equal to
    a number counts as that number; lists and mappings are never listed under. -/
def handler (x : Index) (count : Value) (policy : ReadPolicy) : Except Failure Text :=
  match count with
  | .scalar s =>
    match x.handlers.reverse.find? fun e => (Scalar.int e.1.1).same s && e.1.2 == policy with
    | some e => .ok e.2
    | none => .error (.noHandler count policy)
  | _ => .error .wrongKind

/-- The test that singles out a traced process, with or without its children. -/
def pidCheck (x : Index) (family : Bool) : Text :=
  if family then x.pidCheckFamily else x.pidCheckPlain

/-- The block for each read beyond two packets; there are none at fixed length. -/
def block? (x : Index) : ReadPolicy → Option Text
  | .fixed => none
  | .full => some x.fullBlock
  | .fullConst => some x.constBlock

/-! ## Listing -/

/-- The keys of the handlers, each once, in order. -/
def keys (x : Index) : List HandlerKey := sortBy HandlerKey.le (x.handlers.map (·.1)).eraseDups

/-- The file names of the handlers in the order of their keys. -/
def handlerFiles (x : Index) : List Text := x.keys.filterMap x.handler?

/-- Every file name once, in the order of first use. -/
def allFiles (x : Index) : List Text :=
  ([x.head, x.definitions, x.tracepoints, x.fork, x.exit, x.pidCheckPlain, x.pidCheckFamily,
    x.pidCheckOwn, x.constBlock, x.fullBlock] ++ x.handlerFiles).eraseDups

end Index

end Tracewright
