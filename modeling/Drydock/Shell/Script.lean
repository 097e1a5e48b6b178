/-!
# Shell scripts

The scripts that stand in for tools are written in the language of the POSIX shell.  A `Script` is
what a text of that language says: commands made of words, joined and nested by the shell's own
words.
-/

namespace Drydock.Shell

/-- Where a redirection leads. -/
inductive RedirectKind where
  /-- Written `>`. -/
  | write
  /-- Written `>>`. -/
  | append
  /-- Written `<`. -/
  | read
  /-- Written `>&`. -/
  | duplicate
  /-- Written `<<`, with the text itself in place of a file's name. -/
  | document
  deriving DecidableEq, Repr

mutual

/-- A part of a word. -/
inductive Part where
  | text (s : String) (quoted : Bool)
  /-- Written `$name`, with its longer forms. -/
  | parameter (name : String) (form : Form) (quoted : Bool)
  /-- The output of a script. -/
  | output (script : Script) (quoted : Bool)
  /-- The value of an integer expression. -/
  | arithmetic (expression : List Part) (quoted : Bool)

/-- What is done with the value of a parameter.  `colon` makes an empty value count as absent. -/
inductive Form where
  | plain
  /-- Its length. -/
  | length
  /-- Another word where it is absent. -/
  | fallback (colon : Bool) (word : List Part)
  /-- Another word where it is absent, which is assigned. -/
  | assignment (colon : Bool) (word : List Part)
  /-- Another word where it is present. -/
  | alternative (colon : Bool) (word : List Part)
  /-- What is left when a match of a pattern is taken from one end. -/
  | trimmed (atEnd longest : Bool) (pattern : List Part)

/-- A redirection of a descriptor. -/
inductive Redirect where
  | mk (descriptor : Nat) (kind : RedirectKind) (target : List Part)

/-- A script. -/
inductive Script where
  | nothing
  /-- Assignments, words and redirections, with the line they stand on. -/
  | simple (line : Nat) (assignments : List (String × List Part)) (words : List (List Part))
      (redirects : List Redirect)
  /-- Written `a; b`. -/
  | sequence (a b : Script)
  /-- Written `a && b`. -/
  | both (a b : Script)
  /-- Written `a || b`. -/
  | either (a b : Script)
  /-- Written `! a`. -/
  | negated (a : Script)
  /-- Written `a | b`. -/
  | pipe (a b : Script)
  | group (body : Script) (redirects : List Redirect)
  | subshell (body : Script) (redirects : List Redirect)
  /-- Written `for name in items`; without items the arguments are meant. -/
  | each (name : String) (items : Option (List (List Part))) (body : Script)
      (redirects : List Redirect)
  | choice (word : List Part) (branches : List (List (List Part) × Script))
      (redirects : List Redirect)
  | conditional (test thenBody elseBody : Script) (redirects : List Redirect)
  /-- Written `while` or, with `negated`, `until`. -/
  | loop (negated : Bool) (test body : Script) (redirects : List Redirect)
  | function (name : String) (body : Script)

end

/-- A word before it is expanded. -/
abbrev Word := List Part

end Drydock.Shell
