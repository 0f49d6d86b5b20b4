/-
  Tracewright.Log.Record

  A log is a list of records: how grave, from which part of the program,
  and the message.

    * `Level`  — how grave a record is; the greater, the graver.
    * `Source` — the parts of the program that write records.

  Reference: the loggers by their names, and the levels of the standard
  `logging`.
-/
import Tracewright.Text.Basic

namespace Tracewright.Log

/-- How grave a record is. -/
abbrev Level := Int

namespace Level

def debug : Level := 10
def info : Level := 20
def warning : Level := 30
def error : Level := 40
def critical : Level := 50

end Level

namespace Source

def substitution : Text := "ebpfgen.generator.substitution"
def handler : Text := "ebpfgen.generator.selector"
def assembly : Text := "ebpfgen.generator.assembler"
def attach : Text := "ebpfgen.generator.attach"
def fragments : Text := "ebpfgen.templates.store"
def syscalls : Text := "ebpfgen.catalog.syscalls"
def settings : Text := "ebpfgen.utils.config"
def files : Text := "ebpfgen.exporters.source"
def console : Text := "ebpfgen.exporters.stdout"
def command : Text := "ebpfgen.cli"
def root : Text := "root"

end Source

/-- One record. -/
structure Record where
  level : Level
  source : Text
  message : Text
  deriving DecidableEq, Repr

end Tracewright.Log
