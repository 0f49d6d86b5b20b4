/-
  Tracewright.Failure

  Everything that can go wrong, by cause, and what is said about it.

    * `ConfigFault` — settings and syscall listings that do not fit.
    * `ValueFault`  — an argument outside the range of an operation.
    * `Failure`     — all of them; `Failure.message` is the wording.
    * `Cause`       — what lies under a failure and comes from outside.

  What the operating system or a reader below this library would say about a
  cause is not part of a message; `<cause>` stands in its place.

  Reference: `GeneratorError` and its subclasses, with the built-in exceptions
  that nothing catches: `ValueError` (`value`, `notUtf8`), `TypeError`
  (`wrongKind`), `KeyError` (`noSuchKey`), `OverflowError` (`tooLarge`),
  `MemoryError`, `RecursionError` (`tooDeep`), `RuntimeError` (`changed`) and
  `OSError` (`os`).
-/
import Tracewright.Capture.Policy
import Tracewright.Files.Tree
import Tracewright.Value.Basic

namespace Tracewright

/-! ## Causes -/

/-- What lies under a failure. -/
inductive Cause where
  | os (fault : OsFault)
  | notUtf8
  /-- A document that does not follow its format. -/
  | malformed
  /-- A value of a kind that the operation does not take. -/
  | wrongKind
  /-- A value of the right kind outside the range of the operation. -/
  | badValue
  | noSuchKey
  /-- A cause known only by what is said about it. -/
  | words (t : Text)
  deriving DecidableEq, Repr

def Cause.text : Cause → Text
  | .words t => t
  | _ => "<cause>"

/-- The cause that a failed conversion to an integer is; an infinite number is none. -/
def IntFault.cause? : IntFault → Option Cause
  | .wrongKind => some .wrongKind
  | .noNumeral => some .badValue
  | .infinite => none

/-! ## Settings and listings -/

/-- What is wrong with settings or with a syscall listing. -/
inductive ConfigFault where
  | unknownPolicy (value : Value)
  | notPolicy (value : Value)
  | packetsNotInteger (value : Value)
  | packetsNegative (n : Int)
  | expressionNotText (value : Value)
  | pidNotInteger (value : Value)
  | pidNotPositive (n : Int)
  | packetsUnreadable (value : Value)
  | pidUnreadable (value : Value)
  | settingsUnreadable (file : Text) (cause : Cause)
  | settingsNotMapping (file : Text)
  | slotCount (name : Text) (count : Int) (slots : Nat)
  | slotsOutOfRange (name : Text) (slots : List Int)
  | duplicateNumber (n : Int)
  | unknownFlag (flag : Value)
  | listingUnreadable (file : Text) (cause : Cause)
  | listingMalformed (file : Text) (cause : Cause)
  | listingNotList (file : Text)
  | badEntry (entry : Value) (cause : Cause)
  | badSlots (name : Text) (cause : Cause)
  deriving Repr

/-- Numbers in round brackets; a single one is followed by a comma. -/
def renderSlots : List Int → Text
  | [n] => '(' :: Numeral.decimal n ++ [',', ')']
  | ns => '(' :: List.intercalate (", " : Text) (ns.map Numeral.decimal) ++ [')']

namespace ConfigFault

def message : ConfigFault → Text
  | .unknownPolicy v =>
    ("unknown string read policy '" : Text) ++ v.write ++ ("' (expected: " : Text)
      ++ List.intercalate (", " : Text) (ReadPolicy.all.map ReadPolicy.word) ++ (")" : Text)
  | .notPolicy v => ("invalid string read policy: " : Text) ++ v.render
  | .packetsNotInteger v => ("packet count must be an integer: " : Text) ++ v.render
  | .packetsNegative n => ("packet count must not be negative: " : Text) ++ Numeral.decimal n
  | .expressionNotText v => ("trace expression must be a string: " : Text) ++ v.render
  | .pidNotInteger v => ("pid must be an integer: " : Text) ++ v.render
  | .pidNotPositive n => ("pid must be positive: " : Text) ++ Numeral.decimal n
  | .packetsUnreadable v => ("invalid string_packets: " : Text) ++ v.render
  | .pidUnreadable v => ("invalid pid: " : Text) ++ v.render
  | .settingsUnreadable file c =>
    ("cannot load config " : Text) ++ file ++ (": " : Text) ++ c.text
  | .settingsNotMapping file => ("config " : Text) ++ file ++ (" must contain a mapping" : Text)
  | .slotCount name count slots =>
    ("syscall '" : Text) ++ name ++ ("': " : Text) ++ Numeral.decimal count
      ++ (" string arguments but " : Text) ++ Numeral.decimal slots ++ (" positions" : Text)
  | .slotsOutOfRange name slots =>
    ("syscall '" : Text) ++ name ++ ("': string positions out of range: " : Text)
      ++ renderSlots slots
  | .duplicateNumber n => ("duplicate syscall number: " : Text) ++ Numeral.decimal n
  | .unknownFlag flag => ("unknown argument flag: " : Text) ++ flag.write
  | .listingUnreadable file c =>
    ("cannot read catalog " : Text) ++ file ++ (": " : Text) ++ c.text
  | .listingMalformed file c =>
    ("invalid catalog " : Text) ++ file ++ (": " : Text) ++ c.text
  | .listingNotList file =>
    ("catalog " : Text) ++ file ++ (" must contain a list of syscalls" : Text)
  | .badEntry entry c =>
    ("invalid catalog entry " : Text) ++ entry.render ++ (": " : Text) ++ c.text
  | .badSlots name c =>
    ("invalid positions for syscall '" : Text) ++ name ++ ("': " : Text) ++ c.text

/-- Why the message cannot be written, if so. -/
def obstacle? : ConfigFault → Option Obstacle
  | .unknownPolicy v | .notPolicy v | .packetsNotInteger v | .expressionNotText v
  | .pidNotInteger v | .packetsUnreadable v | .pidUnreadable v | .unknownFlag v
  | .badEntry v _ => v.obstacle?
  | .packetsNegative n | .pidNotPositive n | .duplicateNumber n | .slotCount _ n _ =>
    (Scalar.int n).obstacle?
  | .slotsOutOfRange _ slots => slots.findSome? fun n => (Scalar.int n).obstacle?
  | _ => none

/-- Everything that the message shows can be written. -/
def isWritable (fault : ConfigFault) : Bool := fault.obstacle?.isNone

def cause? : ConfigFault → Option Cause
  | .settingsUnreadable _ c | .listingUnreadable _ c | .listingMalformed _ c
  | .badEntry _ c | .badSlots _ c => some c
  | _ => none

end ConfigFault

/-! ## Values out of range -/

/-- An argument outside the range of an operation. -/
inductive ValueFault where
  | negativeRepeat (count : Value)
  | notOneDigit (n : Int)
  | notOneCharacter (value : Value)
  /-- An integer with too many digits to be written. -/
  | overlongNumeral
  /-- A numeral with too many digits to be read. -/
  | overlongReading (digits : Nat)
  /-- A numeral that has a base but no digits. -/
  | noDigits (base : Nat)
  /-- A code point beyond the last one. -/
  | noCharacter
  /-- A level that is named but has no number. -/
  | unknownLevel
  /-- A file name that holds a NUL. -/
  | unnameable
  /-- A value that a reader below this library refuses in its own words. -/
  | words (t : Text)
  deriving Repr

namespace ValueFault

/-- The words on the limit of digits. -/
def limitWords : Text :=
  ("Exceeds the limit (" : Text) ++ Numeral.decimal Numeral.digitLimit
    ++ (" digits) for integer string conversion" : Text)

/-- The words on how to move the limit. -/
def limitAdvice : Text := "; use sys.set_int_max_str_digits() to increase the limit"

def message : ValueFault → Text
  | .negativeRepeat count => ("repeat count must not be negative: " : Text) ++ count.write
  | .notOneDigit n => ("value does not fit in one character: " : Text) ++ Numeral.decimal n
  | .notOneCharacter v => ("expected a single character, got " : Text) ++ v.render
  | .overlongNumeral => limitWords ++ limitAdvice
  | .overlongReading digits =>
    limitWords ++ (": value has " : Text) ++ Numeral.decimal digits ++ (" digits" : Text)
      ++ limitAdvice
  | .noDigits base =>
    ("invalid literal for int() with base " : Text) ++ Numeral.decimal base ++ (": ''" : Text)
  | .noCharacter => "chr() arg not in range(0x110000)"
  | .unknownLevel => "Unknown level: '%(levelname)s:%(name)s:%(message)s'"
  | .unnameable => "embedded null byte"
  | .words t => t

/-- Why the message cannot be written, if so. -/
def obstacle? : ValueFault → Option Obstacle
  | .notOneDigit n => (Scalar.int n).obstacle?
  | .negativeRepeat v | .notOneCharacter v => v.obstacle?
  | _ => none

end ValueFault

/-! ## Failures -/

/-- The kinds of failure that a caller may report in words of its own. -/
inductive ReportKind where
  | general
  | config
  | selection
  | output
  deriving DecidableEq, Repr

/-- Everything that can go wrong. -/
inductive Failure where
  /-- Settings or a listing do not fit. -/
  | config (fault : ConfigFault)
  /-- A fragment is missing or cannot be read. -/
  | fragmentUnreadable (path : Text) (cause : Option Cause)
  /-- No handler is listed for so many string arguments under a policy. -/
  | noHandler (count : Value) (policy : ReadPolicy)
  /-- A marker that has to be there is not. -/
  | markerMissing (marker : Text)
  /-- Markers are left in a finished program. -/
  | markersLeft (markers : List Text)
  | unknownExpression (expression : Text)
  /-- The output stream took no more of the program. -/
  | streamRefused (cause : Cause)
  /-- The file of the program could not be written. -/
  | fileRefused (path : Text) (cause : Cause)
  /-- A failure in a caller's words. -/
  | reported (kind : ReportKind) (words : Text)
  | value (fault : ValueFault)
  /-- A value is of a kind that the operation does not take. -/
  | wrongKind
  | noSuchKey
  /-- A number is too large for what it is used for. -/
  | tooLarge
  /-- There is no memory for a text. -/
  | outOfMemory
  | notUtf8
  /-- A recursion goes too deep. -/
  | tooDeep
  /-- A mapping has changed while one goes through it. -/
  | changed
  | os (fault : OsFault)
  /-- A failure of a reader below this library that nothing here speaks about. -/
  | other (kind : Text)
  deriving Repr

namespace Failure

/-- What is said about a failure; the kinds that no part of the program speaks about say
    nothing. -/
def message : Failure → Text
  | .config fault => fault.message
  | .fragmentUnreadable path cause =>
    let words := (cause.map Cause.text).getD []
    ("cannot load the file: " : Text) ++ path
      ++ (if words.isEmpty then [] else (" (" : Text) ++ words ++ (")" : Text))
  | .noHandler count policy =>
    ("no template for " : Text) ++ count.write ++ (" string arguments in '" : Text)
      ++ policy.word ++ ("' mode" : Text)
  | .markerMissing marker => ("placeholder not found: " : Text) ++ Text.quoted marker
  | .markersLeft markers =>
    ("unresolved placeholders: " : Text) ++ List.intercalate (", " : Text) markers
  | .unknownExpression e => ("unknown option: '" : Text) ++ e ++ ("'" : Text)
  | .streamRefused c => ("cannot write generated code: " : Text) ++ c.text
  | .fileRefused path c => ("cannot write " : Text) ++ path ++ (": " : Text) ++ c.text
  | .reported _ words => words
  | .value fault => fault.message
  | .wrongKind | .noSuchKey | .tooLarge | .outOfMemory | .notUtf8 | .tooDeep | .changed | .os _
  | .other _ => []

/-- The failure to show a value. -/
def ofObstacle : Obstacle → Failure
  | .overlong => .value .overlongNumeral
  | .tooDeep => .tooDeep

/-- Why the message cannot be written, if so. -/
def obstacle? : Failure → Option Obstacle
  | .config fault => fault.obstacle?
  | .noHandler count _ => count.obstacle?
  | .value fault => fault.obstacle?
  | _ => none

/-- Everything that the message shows can be written. -/
def isWritable (e : Failure) : Bool := e.obstacle?.isNone

/-- A failure whose message cannot be written gives way to that. -/
def told (e : Failure) : Failure :=
  match e.obstacle? with
  | none => e
  | some obstacle => ofObstacle obstacle

/-- The failure belongs to the generation of programs and is reported as such; the others
    are faults of the caller or of its surroundings. -/
def isReported : Failure → Bool
  | .config _ | .fragmentUnreadable _ _ | .noHandler _ _ | .markerMissing _ | .markersLeft _
  | .unknownExpression _ | .streamRefused _ | .fileRefused _ _ | .reported _ _ => true
  | .value _ | .wrongKind | .noSuchKey | .tooLarge | .outOfMemory | .notUtf8 | .tooDeep
  | .changed | .os _ | .other _ => false

def cause? : Failure → Option Cause
  | .config fault => fault.cause?
  | .fragmentUnreadable _ cause => cause
  | .streamRefused c | .fileRefused _ c => some c
  | _ => none

/-- A refusal of the operating system; a name that it would not even take is an argument
    out of range. -/
def ofOs : OsFault → Failure
  | .unnameable => .value .unnameable
  | fault => .os fault

end Failure

end Tracewright
