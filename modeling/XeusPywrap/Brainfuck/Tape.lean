import Mathlib.Logic.Function.Basic
import XeusPywrap.Common.Brackets

/-!
# XeusPywrap.Brainfuck.Tape

What a Brainfuck program means, without program counters, jumps or a table of
brackets: a head on a tape of bytes that starts at position 0 and never ends, an
output that grows, and blocks that are repeated while the byte under the head is not
zero.

`Runs` is the meaning of a well-bracketed program. A program in which some opening
brackets have no partner runs up to the first of them that it reaches with a zero
under the head (`Ends`).
-/

namespace XeusPywrap.Brainfuck

/-- The tape, the head and what has been written. -/
structure Tape where
  cells : Nat → BitVec 8
  head : Nat
  output : List (BitVec 8)

namespace Tape

def initial : Tape := ⟨fun _ => 0, 0, []⟩

/-- The byte under the head. -/
def current (t : Tape) : BitVec 8 := t.cells t.head

/-- Replace the byte under the head. -/
def change (t : Tape) (f : BitVec 8 → BitVec 8) : Tape :=
  { t with cells := Function.update t.cells t.head (f t.current) }

/-- A command other than the brackets. The head stays at the left end, bytes wrap
around, and there is nothing to read. -/
def command (t : Tape) : Char → Tape
  | '>' => { t with head := t.head + 1 }
  | '<' => { t with head := t.head - 1 }
  | '+' => t.change (· + 1)
  | '-' => t.change (· - 1)
  | '.' => { t with output := t.output ++ [t.current] }
  | _ => t

end Tape

/-- A program, with the position of every command. -/
abbrev Program := Forest (Char × Nat)

/-- **The meaning of a well-bracketed program.** -/
inductive Runs : Program → Tape → Tape → Prop
  | nil (t : Tape) : Runs .nil t t
  | command {a : Char × Nat} {rest : Program} {t t' : Tape} :
      Runs rest (t.command a.1) t' → Runs (.leaf a rest) t t'
  | skip {o c : Char × Nat} {body rest : Program} {t t' : Tape} :
      t.current = 0 → Runs rest t t' → Runs (.block o body c rest) t t'
  | again {o c : Char × Nat} {body rest : Program} {t t₁ t' : Tape} :
      t.current ≠ 0 → Runs body t t₁ → Runs (.block o body c rest) t₁ t' →
        Runs (.block o body c rest) t t'

/-- A program with openings that nothing closes: how it ends, and the tape. `some
position` means that it got to the opening at this position with a zero under the
head, where there is no partner to jump to. -/
inductive Ends : Program → List ((Char × Nat) × Program) → Option Nat → Tape → Tape → Prop
  | done {f : Program} {t t' : Tape} : Runs f t t' → Ends f [] none t t'
  | stuck {f g : Program} {o : Char × Nat} {rest : List ((Char × Nat) × Program)}
      {t t₁ : Tape} :
      Runs f t t₁ → t₁.current = 0 → Ends f ((o, g) :: rest) (some o.2) t t₁
  | enter {f g : Program} {o : Char × Nat} {rest : List ((Char × Nat) × Program)}
      {stuckAt : Option Nat} {t t₁ t' : Tape} :
      Runs f t t₁ → t₁.current ≠ 0 → Ends g rest stuckAt t₁ t' →
        Ends f ((o, g) :: rest) stuckAt t t'

end XeusPywrap.Brainfuck
