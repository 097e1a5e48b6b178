import Drydock.Text.Blank

/-!
# Integer expressions

The expressions that a script writes between `$((` and `))`.  `Expression.parse?` reads one, and
`Expression.value?` computes it; a division by zero has no value.
-/

namespace Drydock.Shell

/-- An operator of two operands. -/
inductive Operator where
  | or | and | bitOr | bitXor | bitAnd | eq | ne | lt | le | gt | ge | shiftLeft | shiftRight
  | add | sub | mul | div | mod
  deriving DecidableEq, Repr

namespace Operator

/-- How strongly an operator binds its operands. -/
def strength : Operator → Nat
  | or => 0
  | and => 1
  | bitOr => 2
  | bitXor => 3
  | bitAnd => 4
  | eq => 5
  | ne => 5
  | lt => 6
  | le => 6
  | gt => 6
  | ge => 6
  | shiftLeft => 7
  | shiftRight => 7
  | add => 8
  | sub => 8
  | mul => 9
  | div => 9
  | mod => 9

/-- The operator that a text begins with, and the text behind it. -/
def read? : List Char → Option (Operator × List Char)
  | '|' :: '|' :: rest => some (or, rest)
  | '&' :: '&' :: rest => some (and, rest)
  | '|' :: rest => some (bitOr, rest)
  | '^' :: rest => some (bitXor, rest)
  | '&' :: rest => some (bitAnd, rest)
  | '=' :: '=' :: rest => some (eq, rest)
  | '!' :: '=' :: rest => some (ne, rest)
  | '<' :: '<' :: rest => some (shiftLeft, rest)
  | '>' :: '>' :: rest => some (shiftRight, rest)
  | '<' :: '=' :: rest => some (le, rest)
  | '>' :: '=' :: rest => some (ge, rest)
  | '<' :: rest => some (lt, rest)
  | '>' :: rest => some (gt, rest)
  | '+' :: rest => some (add, rest)
  | '-' :: rest => some (sub, rest)
  | '*' :: rest => some (mul, rest)
  | '/' :: rest => some (div, rest)
  | '%' :: rest => some (mod, rest)
  | _ => none

/-- A truth value as a number. -/
def ofBool (b : Bool) : Int := if b then 1 else 0

/-- What an operator makes of two numbers.  Quotients are cut off toward zero. -/
def result? (op : Operator) (a b : Int) : Option Int :=
  match op with
  | or => some (ofBool (a ≠ 0 || b ≠ 0))
  | and => some (ofBool (a ≠ 0 && b ≠ 0))
  | bitOr => some (Int64.ofInt a ||| Int64.ofInt b).toInt
  | bitXor => some (Int64.ofInt a ^^^ Int64.ofInt b).toInt
  | bitAnd => some (Int64.ofInt a &&& Int64.ofInt b).toInt
  | eq => some (ofBool (a = b))
  | ne => some (ofBool (a ≠ b))
  | lt => some (ofBool (a < b))
  | le => some (ofBool (a ≤ b))
  | gt => some (ofBool (a > b))
  | ge => some (ofBool (a ≥ b))
  | shiftLeft => some (Int64.ofInt a <<< Int64.ofInt b).toInt
  | shiftRight => some (Int64.ofInt a >>> Int64.ofInt b).toInt
  | add => some (Int64.ofInt (a + b)).toInt
  | sub => some (Int64.ofInt (a - b)).toInt
  | mul => some (Int64.ofInt (a * b)).toInt
  | div => if b = 0 then none else some (Int.tdiv a b)
  | mod => if b = 0 then none else some (Int.tmod a b)

end Operator

/-- An integer expression. -/
inductive Expression where
  | number (n : Int)
  | name (s : String)
  | negative (a : Expression)
  /-- One where the operand is zero, and otherwise zero. -/
  | negated (a : Expression)
  | binary (op : Operator) (a b : Expression)
  /-- Written `a ? b : c`. -/
  | choice (a b c : Expression)
  deriving DecidableEq, Repr

namespace Expression

/-- Drops blanks. -/
def dropBlanks (cs : List Char) : List Char :=
  cs.dropWhile fun c => c ∈ [' ', '\t', '\n']

mutual

/-- Reads an operand. -/
def operand? : Nat → List Char → Option (Expression × List Char)
  | 0, _ => none
  | depth + 1, cs =>
      match dropBlanks cs with
      | '(' :: rest =>
          match choice? depth rest with
          | some (inside, behind) =>
              match dropBlanks behind with
              | ')' :: rest => some (inside, rest)
              | _ => none
          | none => none
      | '-' :: rest => (operand? depth rest).map fun (a, behind) => (.negative a, behind)
      | '+' :: rest => operand? depth rest
      | '!' :: rest => (operand? depth rest).map fun (a, behind) => (.negated a, behind)
      | start =>
          let word := start.takeWhile fun c => c.isAlphanum || c = '_'
          let behind := start.drop word.length
          match word with
          | [] => none
          | c :: _ =>
              if c.isDigit then
                (String.ofList word).toNat?.map fun n => (.number n, behind)
              else some (.name (.ofList word), behind)
termination_by structural depth _ => depth

/-- Reads the operators that bind at least as strongly as `least`, with their right operands. -/
def operators? (least : Nat) (left : Expression) :
    Nat → List Char → Option (Expression × List Char)
  | 0, _ => none
  | depth + 1, cs =>
      match Operator.read? (dropBlanks cs) with
      | none => some (left, cs)
      | some (op, rest) =>
          if op.strength < least then some (left, cs)
          else
            match operand? depth rest with
            | none => none
            | some (first, behind) =>
                match operators? (op.strength + 1) first depth behind with
                | none => none
                | some (right, behind) =>
                    operators? least (.binary op left right) depth behind
termination_by structural depth _ => depth

/-- Reads an expression. -/
def choice? : Nat → List Char → Option (Expression × List Char)
  | 0, _ => none
  | depth + 1, cs => do
      let (first, behind) ← operand? depth cs
      let (test, behind) ← operators? 0 first depth behind
      match dropBlanks behind with
      | '?' :: rest => do
          let (yes, behind) ← choice? depth rest
          match dropBlanks behind with
          | ':' :: rest => do
              let (no, behind) ← choice? depth rest
              return (.choice test yes no, behind)
          | _ => none
      | rest => some (test, rest)
termination_by structural depth _ => depth

end

/-- Reads a text that is one expression. -/
def parse? (cs : List Char) : Option Expression :=
  match choice? (4 * cs.length + 4) cs with
  | some (e, []) => some e
  | _ => none

/-- The value of an expression, given the values of names. -/
def value? (names : String → Int) : Expression → Option Int
  | number n => some n
  | name s => some (names s)
  | negative a => (value? names a).map (-·)
  | negated a => (value? names a).map fun n => Operator.ofBool (n = 0)
  | binary op a b => do
      let x ← value? names a
      if op = .and ∧ x = 0 then return 0
      else if op = .or ∧ x ≠ 0 then return 1
      else op.result? x (← value? names b)
  | choice a b c => do
      if (← value? names a) ≠ 0 then value? names b else value? names c

end Expression

end Drydock.Shell
