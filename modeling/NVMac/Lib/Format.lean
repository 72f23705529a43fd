import Mathlib.Data.BitVec
import NVMac.Lib.CString

/-!
# Formatting as C does it

A format is parsed into characters and directives, and printed with a list of arguments, one for
each directive and of its type. Otherwise C gives it no meaning, and the result is `none`. Arguments
that are left over are ignored.
-/

namespace Format

inductive Directive
  | decimal | unsigned | hex | string
deriving DecidableEq, Repr

inductive Piece
  | char (c : Char)
  | directive (d : Directive)
deriving DecidableEq, Repr

/-- A `va_list` that is itself passed as an argument is the list of those it ranges over. -/
inductive Arg
  | int (n : BitVec 32)
  | unsigned (n : BitVec 32)
  | string (text : List Char)
  | vaList (ap : List Arg)

def conversion : Char → Option Piece
  | '%' => some (.char '%')
  | 'd' => some (.directive .decimal)
  | 'u' => some (.directive .unsigned)
  | 'x' => some (.directive .hex)
  | 's' => some (.directive .string)
  | _ => none

def parse : List Char → Option (List Piece)
  | [] => some []
  | c :: fmt =>
    if c = '%' then
      match fmt with
      | [] => none
      | c' :: fmt => do return (← conversion c') :: (← parse fmt)
    else (parse fmt).map (.char c :: ·)

def showInt (n : Int) : List Char :=
  if n < 0 then '-' :: Nat.toDigits 10 n.natAbs else Nat.toDigits 10 n.natAbs

def Directive.print : Directive → Arg → Option (List Char)
  | .decimal, .int n => some (showInt n.toInt)
  | .unsigned, .unsigned n => some (Nat.toDigits 10 n.toNat)
  | .hex, .unsigned n => some (Nat.toDigits 16 n.toNat)
  | .string, .string text => some text
  | _, _ => none

def print : List Piece → List Arg → Option (List Char)
  | [], _ => some []
  | .char c :: pieces, args => (print pieces args).map (c :: ·)
  | .directive _ :: _, [] => none
  | .directive d :: pieces, arg :: args => do return (← d.print arg) ++ (← print pieces args)

def format (fmt : List Char) (args : List Arg) : Option (List Char) := do print (← parse fmt) args

/-- The arguments are those of the directives, in number and type. -/
def Fits : List Piece → List Arg → Prop
  | [], args => args = []
  | .char _ :: pieces, args => Fits pieces args
  | .directive _ :: _, [] => False
  | .directive d :: pieces, arg :: args => (d.print arg).isSome = true ∧ Fits pieces args

def Matches (fmt : List Char) (args : List Arg) : Prop := ∃ pieces, parse fmt = some pieces ∧ Fits pieces args

/-- The result is the length of the whole text, of which `str` gets `size - 1` characters at most. -/
def snprintf (str : List Char) (size : Nat) (fmt : List Char) (args : List Arg) : Option (Nat × List Char) := do
  let text ← format fmt args
  let str ← CString.store '\x00' size str text
  return (text.length, str)

def vsnprintf (str : List Char) (size : Nat) (fmt : List Char) (ap : List Arg) : Option (Nat × List Char) :=
  snprintf str size fmt ap

variable {pieces : List Piece} {fmt : List Char} {args ap : List Arg} {str text : List Char} {size : Nat}

theorem Directive.print_vaList (d : Directive) : d.print (.vaList ap) = none := by
  cases d <;> rfl

theorem exists_print (h : Fits pieces args) : ∃ text, print pieces args = some text := by
  induction pieces generalizing args with
  | nil => exact ⟨[], rfl⟩
  | cons piece pieces ih =>
    cases piece with
    | char c =>
      obtain ⟨text, htext⟩ := ih h
      exact ⟨c :: text, by rw [print, htext]; rfl⟩
    | directive d =>
      cases args with
      | nil => exact h.elim
      | cons arg args =>
        obtain ⟨shown, hshown⟩ := Option.isSome_iff_exists.mp h.1
        obtain ⟨text, htext⟩ := ih h.2
        exact ⟨shown ++ text, by rw [print, hshown, htext]; rfl⟩

theorem Matches.exists_format (h : Matches fmt args) : ∃ text, format fmt args = some text := by
  obtain ⟨pieces, hparse, hfits⟩ := h
  obtain ⟨text, htext⟩ := exists_print hfits
  exact ⟨text, by rw [format, hparse]; exact htext⟩

/-- What needs no argument prints the same whatever it is given. -/
theorem print_of_fits_nil (h : Fits pieces []) (args : List Arg) : print pieces args = print pieces [] := by
  induction pieces with
  | nil => rfl
  | cons piece pieces ih =>
    cases piece with
    | char c => rw [print, print, ih h]
    | directive d => exact h.elim

/-- A first directive is given the list, which it cannot print. -/
theorem print_vaList (h : Fits pieces args) (hargs : args ≠ []) : print pieces [.vaList ap] = none := by
  induction pieces with
  | nil => exact absurd h hargs
  | cons piece pieces ih =>
    cases piece with
    | char c => rw [print, ih h]; rfl
    | directive d => rw [print, d.print_vaList]; rfl

/-- A list of arguments passed as one argument does only where there are none. -/
theorem format_vaList (ap : List Arg) (h : Matches fmt args) :
    format fmt [.vaList ap] = if args = [] then format fmt args else none := by
  obtain ⟨pieces, hparse, hfits⟩ := h
  rw [format, format, hparse]
  show print pieces [.vaList ap] = if args = [] then print pieces args else none
  split_ifs with hargs
  · subst hargs
    exact print_of_fits_nil hfits _
  · exact print_vaList hfits hargs

theorem snprintf_eq (h : format fmt args = some text) :
    snprintf str size fmt args = (CString.store '\x00' size str text).map (text.length, ·) := by
  rw [snprintf, h]
  show (CString.store '\x00' size str text >>= _) = _
  cases CString.store '\x00' size str text <;> rfl

end Format
