import Drydock.FileTree.Access

/-!
# Small tools

The tools that scripts use: each one gets its arguments and its input and gives an exit code, output
and a changed file tree.
-/

namespace Drydock.Shell

/-- What a tool did. -/
structure Effect where
  code : Nat := 0
  out : Bytes := []
  err : Bytes := []
  workspace : Workspace

/-- Text on the output of a tool. -/
def Effect.say (w : Workspace) (text : String) : Effect :=
  { out := Text.Utf8.encode text, workspace := w }

/-- An error message of a tool. -/
def Effect.complain (w : Workspace) (code : Nat) (text : String) : Effect :=
  { code, err := Text.Utf8.encode (text ++ "\n"), workspace := w }

/-- The wording of an error as tools show it, without its number. -/
def shortMessage (e : IoError) : String :=
  match Text.splitChars '(' e.message.toList with
  | first :: _ :: _ => Text.trim (.ofList first)
  | _ => e.message

/-- Repeats a tool for several files and keeps the worst exit code. -/
def eachFile (w : Workspace) (files : List String) (act : Workspace → String → Effect) : Effect :=
  files.foldl
    (fun e file =>
      let next := act e.workspace file
      { code := max e.code next.code, out := e.out ++ next.out, err := e.err ++ next.err,
        workspace := next.workspace })
    { workspace := w }

/-! ## Escapes -/

/-- The digits of a base at the start of a text, at most `limit`. -/
def digitsOf (limit base : Nat) : List Char → List Char
  | [] => []
  | c :: rest =>
      match limit with
      | 0 => []
      | limit + 1 =>
          if c.isDigit && c.toNat - 48 < base then c :: digitsOf limit base rest else []

/-- The value of octal digits as a byte. -/
def octalByte (digits : List Char) : UInt8 :=
  UInt8.ofNat (digits.foldl (fun n c => 8 * n + (c.toNat - 48)) 0)

/-- The byte of an escape of one letter. -/
def letterEscape? : Char → Option UInt8
  | 'a' => some 7
  | 'b' => some 8
  | 'f' => some 12
  | 'n' => some 10
  | 'r' => some 13
  | 't' => some 9
  | 'v' => some 11
  | '\\' => some 92
  | _ => none

/-- The bytes of a character. -/
def charBytes (c : Char) : Bytes := Text.Utf8.encode (.singleton c)

/-- Writes a text with its escapes: `\0` with up to three octal digits, or with `plainOctal` also
without the zero.  `\c` ends all output. -/
def unescape (plainOctal : Bool) (cs : List Char) : Bytes × Bool :=
  match cs with
  | [] => ([], false)
  | '\\' :: 'c' :: _ => ([], true)
  | '\\' :: '0' :: rest =>
      let digits := digitsOf (if plainOctal then 2 else 3) 8 rest
      let (bytes, ended) := unescape plainOctal (rest.drop digits.length)
      (octalByte digits :: bytes, ended)
  | '\\' :: c :: rest =>
      match letterEscape? c with
      | some b =>
          let (bytes, ended) := unescape plainOctal rest
          (b :: bytes, ended)
      | none =>
          let digits := if plainOctal then digitsOf 3 8 (c :: rest) else []
          if digits = [] then
            let (bytes, ended) := unescape plainOctal rest
            (92 :: charBytes c ++ bytes, ended)
          else
            let (bytes, ended) := unescape plainOctal (rest.drop (digits.length - 1))
            (octalByte digits :: bytes, ended)
  | c :: rest =>
      let (bytes, ended) := unescape plainOctal rest
      (charBytes c ++ bytes, ended)
termination_by cs.length
decreasing_by
  all_goals
    simp only [List.length_cons, List.length_drop]
    omega

/-- Prints its arguments with spaces between them and a line end. -/
def echo (w : Workspace) (args : List String) : Effect :=
  let (args, lineEnd) := match args with
    | "-n" :: rest => (rest, false)
    | args => (args, true)
  let (bytes, ended) := unescape false (" ".intercalate args).toList
  { out := bytes ++ (if ended || !lineEnd then [] else [10]), workspace := w }

/-- Prints its arguments as they are. -/
def echoPlain (w : Workspace) (args : List String) : Effect :=
  match args with
  | "-n" :: rest => .say w (" ".intercalate rest)
  | _ => .say w (" ".intercalate args ++ "\n")

/-! ## Formatted output -/

/-- Pads a text to a width; `left` puts it first, and `zero` fills with zeros. -/
def pad (left zero : Bool) (width : Nat) (bytes : Bytes) : Bytes :=
  let missing := width - bytes.length
  if left then bytes ++ List.replicate missing 32
  else List.replicate missing (if zero then 48 else 32) ++ bytes

/-- The decimal digits of an argument, or a zero. -/
def integerText (arg : String) : String :=
  match (Text.trim arg).toInt? with
  | some n => toString n
  | none => "0"

/-- Writes a format once, taking arguments from the front of a list. -/
def formatOnce (args : List String) (cs : List Char) : Bytes × List String :=
  match cs with
  | [] => ([], args)
  | '%' :: '%' :: rest =>
      let (bytes, left) := formatOnce args rest
      (37 :: bytes, left)
  | '%' :: rest =>
      let flags := rest.takeWhile (· ∈ ['-', '0', ' ', '+', '#'])
      let behind := rest.drop flags.length
      let digits := behind.takeWhile Char.isDigit
      let width := digits.foldl (fun n c => 10 * n + (c.toNat - 48)) 0
      match behind.drop digits.length with
      | kind :: tail =>
          if tail.length ≤ rest.length then
            let arg := args.headD ""
            let body : Bytes :=
              match kind with
              | 's' => Text.Utf8.encode arg
              | 'b' => (unescape true arg.toList).1
              | 'c' => (arg.toList.head?.map charBytes).getD []
              | _ => Text.Utf8.encode (integerText arg)
            let shown := pad ('-' ∈ flags) ('0' ∈ flags) width body
            let (bytes, left) := formatOnce args.tail tail
            (shown ++ bytes, left)
          else ([], args)
      | [] => ([], args)
  | '\\' :: c :: rest =>
      match letterEscape? c with
      | some b =>
          let (bytes, left) := formatOnce args rest
          (b :: bytes, left)
      | none =>
          let digits := digitsOf 3 8 (c :: rest)
          if digits = [] then
            let (bytes, left) := formatOnce args rest
            (92 :: charBytes c ++ bytes, left)
          else
            let (bytes, left) := formatOnce args (rest.drop (digits.length - 1))
            (octalByte digits :: bytes, left)
  | c :: rest =>
      let (bytes, left) := formatOnce args rest
      (charBytes c ++ bytes, left)
termination_by cs.length
decreasing_by
  all_goals
    simp only [List.length_cons, List.length_drop]
    omega

/-- Writes a format again while it takes arguments. -/
def formatAll (args : List String) (format : List Char) : Bytes :=
  let (bytes, left) := formatOnce args format
  if left.length < args.length ∧ left ≠ [] then bytes ++ formatAll left format else bytes
termination_by args.length
decreasing_by
  rename_i h
  exact h.1

/-- Prints its arguments in a format. -/
def printf (w : Workspace) (args : List String) : Effect :=
  match args with
  | format :: rest => { out := formatAll rest format.toList, workspace := w }
  | [] => .complain w 2 "printf: usage: printf format [arg ...]"

/-! ## Files -/

/-- Prints files, or the input where none is given. -/
def cat (w : Workspace) (args : List String) (input : Bytes) : Effect :=
  eachFile w (if args = [] then ["-"] else args) fun w file =>
    if file = "-" then { out := input, workspace := w }
    else
      match w.readBytes ⟨file⟩ with
      | .ok bytes => { out := bytes, workspace := w }
      | .error e => .complain w 1 ("cat: " ++ file ++ ": " ++ shortMessage e)

/-- Creates files that are missing. -/
def touch (w : Workspace) (args : List String) : Effect :=
  eachFile w args fun w file =>
    if w.exists ⟨file⟩ then { workspace := w }
    else
      match w.write ⟨file⟩ [] with
      | .ok made => { workspace := made }
      | .error e => .complain w 1 ("touch: cannot touch '" ++ file ++ "': " ++ shortMessage e)

/-- The last name of a path without a suffix. -/
def baseName (path suffix : String) : String :=
  let cs := path.toList
  let body := (cs.reverse.dropWhile (· = '/')).reverse
  if body = [] then (if cs = [] then "" else "/")
  else
    let name := (body.reverse.takeWhile (· ≠ '/')).reverse
    let stem := name.take (name.length - suffix.length)
    if suffix ≠ "" ∧ stem ≠ [] ∧ name.drop stem.length = suffix.toList then .ofList stem
    else .ofList name

/-- A path without its last name. -/
def dirName (path : String) : String :=
  let strip := fun (cs : List Char) => (cs.reverse.dropWhile (· = '/')).reverse
  let body := strip path.toList
  let parent := (body.reverse.dropWhile (· ≠ '/')).reverse
  if parent = [] then (if body = [] ∧ path ≠ "" then "/" else ".")
  else if strip parent = [] then "/"
  else .ofList (strip parent)

/-- A complaint about arguments. -/
def misuse (w : Workspace) (tool fault : String) : Effect :=
  .complain w 1 (tool ++ ": " ++ fault ++ "\nTry '" ++ tool ++ " --help' for more information.")

/-- Prints the last name of a path. -/
def basename (w : Workspace) (args : List String) : Effect :=
  match args with
  | [] => misuse w "basename" "missing operand"
  | [path] => .say w (baseName path "" ++ "\n")
  | [path, suffix] => .say w (baseName path suffix ++ "\n")
  | _ :: _ :: extra :: _ => misuse w "basename" ("extra operand '" ++ extra ++ "'")

/-- Prints paths without their last names. -/
def dirname (w : Workspace) (args : List String) : Effect :=
  if args = [] then misuse w "dirname" "missing operand"
  else .say w (String.join (args.map fun path => dirName path ++ "\n"))

/-- Makes directories. -/
def mkdir (w : Workspace) (args : List String) : Effect :=
  let dirs := args.filter (· ≠ "-p")
  let complaint := fun (w : Workspace) (dir : String) (e : IoError) =>
    Effect.complain w 1 ("mkdir: cannot create directory '" ++ dir ++ "': " ++ shortMessage e)
  eachFile w dirs fun w dir =>
    if "-p" ∈ args then
      match w.makeDirectories ⟨dir⟩ with
      | (.ok (), made) => { workspace := made }
      | (.error e, made) => complaint made dir e
    else
      match w.makeDirectory ⟨dir⟩ with
      | .ok made => { workspace := made }
      | .error e => complaint w dir e

/-- Removes files, and with `-r` directories with everything below them. -/
def rm (w : Workspace) (args : List String) : Effect :=
  let options := args.filter (·.startsWith "-")
  let force := options.any fun o => 'f' ∈ o.toList
  let deep := options.any fun o => 'r' ∈ o.toList || 'R' ∈ o.toList
  eachFile w (args.filter fun a => !a.startsWith "-") fun w file =>
    match w.locate ⟨file⟩ with
    | .error e =>
        if force then { workspace := w }
        else .complain w 1 ("rm: cannot remove '" ++ file ++ "': " ++ shortMessage e)
    | .ok l =>
        if w.tree.isDirectoryAt l && !deep then
          .complain w 1 ("rm: cannot remove '" ++ file ++ "': Is a directory")
        else { workspace := { w with tree := w.tree.eraseBelow l } }

/-- Copies a file, into a directory where the target is one. -/
def copyFile (tool : String) (w : Workspace) (source target : String) : Effect :=
  let place :=
    if w.isDirectory ⟨target⟩ then (Path.mk target).join ⟨baseName source ""⟩ else ⟨target⟩
  match w.stat ⟨source⟩ with
  | .error e =>
      .complain w 1 (tool ++ ": cannot stat '" ++ source ++ "': " ++ shortMessage e)
  | .ok .directory =>
      .complain w 1 (tool ++ ": -r not specified; omitting directory '" ++ source ++ "'")
  | .ok (.file bytes executable) =>
      match w.write place bytes with
      | .error e =>
          .complain w 1
            (tool ++ ": cannot create regular file '" ++ place.text ++ "': " ++ shortMessage e)
      | .ok made =>
          match if executable then made.markExecutable place else .ok made with
          | .ok marked => { workspace := marked }
          | .error _ => { workspace := made }

/-- Copies files. -/
def cp (w : Workspace) (args : List String) : Effect :=
  match args.reverse with
  | target :: source :: more =>
      eachFile w (more.reverse ++ [source]) fun w file => copyFile "cp" w file target
  | _ => misuse w "cp" "missing file operand"

/-- Moves files. -/
def mv (w : Workspace) (args : List String) : Effect :=
  match args.reverse with
  | target :: source :: more =>
      eachFile w (more.reverse ++ [source]) fun w file =>
        let copied := copyFile "mv" w file target
        if copied.code ≠ 0 then copied
        else
          match copied.workspace.remove ⟨file⟩ with
          | .ok moved => { workspace := moved }
          | .error _ => copied
  | _ => misuse w "mv" "missing file operand"

/-- Marks files as programs. -/
def chmod (w : Workspace) (args : List String) : Effect :=
  eachFile w args.tail fun w file =>
    match w.markExecutable ⟨file⟩ with
    | .ok marked => { workspace := marked }
    | .error e => .complain w 1 ("chmod: cannot access '" ++ file ++ "': " ++ shortMessage e)

/-! ## Tests -/

/-- A test of one operand. -/
def unaryTest? (w : Workspace) (op arg : String) : Option Bool :=
  match op with
  | "-n" => some (arg ≠ "")
  | "-z" => some (arg = "")
  | "-e" => some (w.exists ⟨arg⟩)
  | "-f" => some (w.isFile ⟨arg⟩)
  | "-d" => some (w.isDirectory ⟨arg⟩)
  | "-r" => some (w.exists ⟨arg⟩)
  | "-w" => some (w.exists ⟨arg⟩)
  | "-s" => some ((w.readBytes ⟨arg⟩).toOption.any (· ≠ []) || w.isDirectory ⟨arg⟩)
  | "-x" =>
      some (match w.stat ⟨arg⟩ with
        | .ok (.file _ executable) => executable
        | .ok .directory => true
        | .error _ => false)
  | "!" => some (arg = "")
  | _ => none

/-- An integer as an operand of a test. -/
def integerOperand (text : String) : Except String Int :=
  match (Text.trim text).toInt? with
  | some n => .ok n
  | none => .error ("Illegal number: " ++ text)

/-- A comparison of two integers. -/
def compareIntegers (a b : String) (holds : Int → Int → Bool) : Except String Bool := do
  return holds (← integerOperand a) (← integerOperand b)

/-- A test of two operands; nothing where the middle one is no operator. -/
def binaryTest? (a op b : String) : Option (Except String Bool) :=
  match op with
  | "=" => some (.ok (a = b))
  | "!=" => some (.ok (a ≠ b))
  | "-eq" => some (compareIntegers a b fun x y => x = y)
  | "-ne" => some (compareIntegers a b fun x y => x ≠ y)
  | "-lt" => some (compareIntegers a b fun x y => x < y)
  | "-le" => some (compareIntegers a b fun x y => x ≤ y)
  | "-gt" => some (compareIntegers a b fun x y => x > y)
  | "-ge" => some (compareIntegers a b fun x y => x ≥ y)
  | _ => none

/-- Cuts a list at the first occurrence of a word behind its first item. -/
def cutAtWord (word : String) (args : List String) : Option (List String × List String) :=
  let before := args.takeWhile (· ≠ word)
  match args.drop before.length with
  | _ :: rest => if before = [] then none else some (before, rest)
  | [] => none

/-- Whether a test of at most the given number of words holds. -/
def testHolds (w : Workspace) (limit : Nat) (args : List String) : Except String Bool :=
  let unexpected : Except String Bool := .error (args.headD "" ++ ": unexpected operator")
  let unary := fun op a =>
    match unaryTest? w op a with
    | some held => .ok held
    | none => unexpected
  match limit with
  | 0 => .ok false
  | limit + 1 =>
  match args with
  | [] => .ok false
  | [a] => .ok (a ≠ "")
  | ["!", a] => .ok (a = "")
  | [op, a] => unary op a
  | ["!", op, a] => (unary op a).map (!·)
  | [a, op, b] =>
      match binaryTest? a op b with
      | some held => held
      | none =>
          if op = "-a" then .ok (a ≠ "" && b ≠ "")
          else if op = "-o" then .ok (a ≠ "" || b ≠ "")
          else unexpected
  | "!" :: rest => (testHolds w limit rest).map (!·)
  | _ =>
      match cutAtWord "-o" args with
      | some (a, b) => do
          let left ← testHolds w limit a
          let right ← testHolds w limit b
          return left || right
      | none =>
          match cutAtWord "-a" args with
          | some (a, b) => do
              let left ← testHolds w limit a
              let right ← testHolds w limit b
              return left && right
          | none => unexpected

/-- Tests a condition under the name that the tool was called by. -/
def test (tool : String) (w : Workspace) (args : List String) : Effect :=
  match testHolds w (args.length + 1) args with
  | .ok true => { workspace := w }
  | .ok false => { code := 1, workspace := w }
  | .error fault => .complain w 2 (tool ++ ": " ++ fault)

/-- The tools by name, as the shell carries them out. -/
def tool? (name : String) : Option (Workspace → List String → Bytes → Effect) :=
  match name with
  | "echo" => some fun w args _ => echo w args
  | "printf" => some fun w args _ => printf w args
  | "cat" => some cat
  | "touch" => some fun w args _ => touch w args
  | "basename" => some fun w args _ => basename w args
  | "dirname" => some fun w args _ => dirname w args
  | "mkdir" => some fun w args _ => mkdir w args
  | "rm" => some fun w args _ => rm w args
  | "cp" => some fun w args _ => cp w args
  | "mv" => some fun w args _ => mv w args
  | "chmod" => some fun w args _ => chmod w args
  | "test" => some fun w args _ => test "test" w args
  | "[" => some fun w args _ =>
      if args.getLast? = some "]" then test "[" w args.dropLast
      else .complain w 2 "[: missing ]"
  | "true" => some fun w _ _ => { workspace := w }
  | "false" => some fun w _ _ => { code := 1, workspace := w }
  | "sleep" => some fun w _ _ => { workspace := w }
  | _ => none

/-- The tools that the shell carries out itself. -/
def ownTools : List String := ["echo", "printf", "test", "[", "true", "false"]

/-- The names of all tools. -/
def toolNames : List String :=
  ["echo", "printf", "cat", "touch", "basename", "dirname", "mkdir", "rm", "cp", "mv", "chmod",
    "test", "[", "true", "false", "sleep"]

end Drydock.Shell
