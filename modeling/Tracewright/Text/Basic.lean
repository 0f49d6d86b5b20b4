/-
  Tracewright.Text.Basic

  Text is a list of code points: every length, count and place in this
  library is measured in code points, and every scan is a recursion over
  them.  A string literal stands for its code points.

    * `unifyLines` — reading a file as lines: the three ways to end a line
      become one.
    * `copies`     — a text several times in a row.
    * `padLeft`, `padRight` — the columns of a listing.

  Reference: the built-in `str`, and the line ends of files that are open for
  reading as text.
-/

namespace Tracewright

/-- A text is the list of its code points. -/
abbrev Text := List Char

instance : Coe String Text := ⟨String.toList⟩

namespace Text

/-! ## Line ends -/

/-- Carriage return and line feed, or a carriage return alone, become one line feed;
    `done` is what has been read, last character first. -/
def unifyLoop (done : Text) : Text → Text
  | [] => done.reverse
  | '\r' :: '\n' :: rest => unifyLoop ('\n' :: done) rest
  | '\r' :: rest => unifyLoop ('\n' :: done) rest
  | c :: rest => unifyLoop (c :: done) rest

/-- The text with every line end written as a single line feed. -/
def unifyLines (t : Text) : Text := unifyLoop [] t

/-! ## Copies -/

/-- A text `count` times in a row. -/
def copies (count : Nat) (t : Text) : Text :=
  if t.isEmpty then [] else (List.replicate count t).flatten

theorem copies_eq (count : Nat) (t : Text) : copies count t = (List.replicate count t).flatten := by
  cases t <;> simp [copies]

/-! ## Columns -/

/-- At least `width` wide, filled up with blanks on the left. -/
def padLeft (width : Nat) (t : Text) : Text :=
  List.replicate (width - t.length) ' ' ++ t

/-- At least `width` wide, filled up with blanks on the right. -/
def padRight (width : Nat) (t : Text) : Text :=
  t ++ List.replicate (width - t.length) ' '

end Text

end Tracewright
