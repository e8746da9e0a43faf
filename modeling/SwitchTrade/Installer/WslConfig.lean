import SwitchTrade.Transition.Lines

/-!
# The file `.wslconfig`

The text is read by lines: a section header, a setting, or anything else. `values` collects
the settings of `[wsl2]`, the first of each name; `merge` rewrites a text so that the given
settings have the given values and every other line stays (`values_merge`).
-/

namespace SwitchTrade.Installer

open Lines

abbrev Text := List Char

/-- `StringComparer.OrdinalIgnoreCase` compares character by character after `upper`, the
invariant upper case. -/
structure Casing where
  upper : Char → Char
  ascii : ∀ c, c.toNat < 128 → upper c = c.toUpper

namespace Casing

def Same (casing : Casing) (a b : Text) : Prop := a.map casing.upper = b.map casing.upper

instance (casing : Casing) (a b : Text) : Decidable (casing.Same a b) := by
  unfold Same
  infer_instance

theorem Same.refl (casing : Casing) (a : Text) : casing.Same a a := rfl

theorem Same.symm {casing : Casing} {a b : Text} (h : casing.Same a b) : casing.Same b a :=
  Eq.symm h

theorem Same.trans {casing : Casing} {a b c : Text} (h : casing.Same a b) (h' : casing.Same b c) :
    casing.Same a c :=
  Eq.trans h h'

theorem Same.length {casing : Casing} {a b : Text} (h : casing.Same a b) : a.length = b.length := by
  have hl := congrArg List.length h
  simpa using hl

end Casing

namespace WslConfig

/-- `\s`. -/
def isSpace (c : Char) : Bool :=
  let n := c.toNat
  (9 ≤ n && n ≤ 13) || n = 0x20 || n = 0x85 || n = 0xa0 || n = 0x1680 ||
    (0x2000 ≤ n && n ≤ 0x200a) || n = 0x2028 || n = 0x2029 || n = 0x202f || n = 0x205f || n = 0x3000

/-- `[^#;=\s]`. -/
def isKeyChar (c : Char) : Bool := c != '#' && c != ';' && c != '=' && !isSpace c

/-- `SectionPattern().Match(line).Groups[1].Value`. -/
def sectionName (line : Text) : Option Text :=
  match line.dropWhile isSpace with
  | '[' :: rest =>
    let name := rest.takeWhile (· != ']')
    match rest.dropWhile (· != ']') with
    | ']' :: tail => if name ≠ [] ∧ tail.all isSpace = true then some name else none
    | _ => none
  | _ => none

/-- `ValuePattern().Match(line)`: groups 1 and 2. -/
def setting (line : Text) : Option (Text × Text) :=
  let body := line.dropWhile isSpace
  let key := body.takeWhile isKeyChar
  match (body.dropWhile isKeyChar).dropWhile isSpace with
  | '=' :: rest => if key ≠ [] then some (key, trim isSpace rest) else none
  | _ => none

def wsl2 : Text := "wsl2".toList

variable (casing : Casing)

/-- `IReadOnlyDictionary.TryGetValue` with `OrdinalIgnoreCase`. -/
def tryGetValue {α : Type} (entries : List (Text × α)) (key : Text) : Option α :=
  (entries.find? fun entry => casing.Same entry.1 key).map Prod.snd

def tryAdd {α : Type} (entries : List (Text × α)) (key : Text) (value : α) : List (Text × α) :=
  if (tryGetValue casing entries key).isSome then entries else entries ++ [(key, value)]

structure Reading where
  result : List (Text × Text)
  currentSection : Text

def readLine (r : Reading) (line : Text) : Reading :=
  match sectionName line with
  | some name => { r with currentSection := name }
  | none =>
    match setting line with
    | some (key, value) =>
      if casing.Same r.currentSection wsl2 then
        { r with result := tryAdd casing r.result key value }
      else r
    | none => r

/-- `WslConfig.Values`. -/
def values (text : Text) : List (Text × Text) :=
  ((splitLines text).foldl (readLine casing) ⟨[], []⟩).result

/-! ## `Merge` -/

structure Merging where
  result : List Text
  seen : List Text
  inWsl2 : Bool
  foundWsl2 : Bool

/-- `seen` holds the name. -/
def Seen (seen : List Text) (key : Text) : Prop := ∃ k ∈ seen, casing.Same k key

instance (seen : List Text) (key : Text) : Decidable (Seen casing seen key) := by
  unfold Seen
  infer_instance

def addMissing (m : Merging) (entry : Text × Option Text) : Merging :=
  match entry.2 with
  | some value =>
    if Seen casing m.seen entry.1 then m
    else { m with
      seen := m.seen ++ [entry.1]
      result := m.result ++ [entry.1 ++ '=' :: value] }
  | none => m

/-- `AppendMissing()`. -/
def appendMissing (entries : List (Text × Option Text)) (m : Merging) : Merging :=
  if m.inWsl2 then { entries.foldl (addMissing casing) m with inWsl2 := false } else m

/-- What becomes of a setting of `[wsl2]` that is among the values to merge. -/
def replaceSetting (m : Merging) (key : Text) (replacement : Option Text) : Merging :=
  if Seen casing m.seen key then m
  else { m with
    seen := m.seen ++ [key]
    result := match replacement with
      | some value => m.result ++ [key ++ '=' :: value]
      | none => m.result }

def mergeLine (entries : List (Text × Option Text)) (m : Merging) (line : Text) : Merging :=
  match sectionName line with
  | some name =>
    let closed := appendMissing casing entries m
    { closed with
      inWsl2 := decide (casing.Same name wsl2)
      foundWsl2 := closed.foundWsl2 || decide (casing.Same name wsl2)
      result := closed.result ++ [line] }
  | none =>
    match setting line with
    | some (key, _) =>
      if m.inWsl2 then
        match tryGetValue casing entries key with
        | some replacement => replaceSetting casing m key replacement
        | none => { m with result := m.result ++ [line] }
      else { m with result := m.result ++ [line] }
    | none => { m with result := m.result ++ [line] }

def settings (entries : List (Text × Option Text)) : List Text :=
  entries.filterMap fun entry => entry.2.map fun value => entry.1 ++ '=' :: value

/-- What is added when no section `[wsl2]` was found. -/
def appendSection (entries : List (Text × Option Text)) (result : List Text) : List Text :=
  let spaced := if result.getLast?.any fun line => !line.isEmpty then result ++ [[]] else result
  spaced ++ "[wsl2]".toList :: settings entries

def dropEmptyLast (lines : List Text) : List Text :=
  if lines.getLast? = some [] then lines.dropLast else lines

end WslConfig

/-! ## Documents -/

/-- The encodings `TextDocument.Read` tells apart. -/
inductive Encoding where
  | utf8
  | utf8Bom
  | utf16
  | utf16BigEndian
deriving DecidableEq, Repr

/-- The content of a text file. -/
structure Content where
  encoding : Encoding
  text : Text
deriving DecidableEq

structure TextDocument where
  text : Text
  encoding : Encoding
  newLine : NewLine
  finalNewLine : Bool

namespace TextDocument

def containsCrlf : Text → Bool
  | '\r' :: '\n' :: _ => true
  | _ :: cs => containsCrlf cs
  | [] => false

/-- `TextDocument.Read`. -/
def read (content : Content) : TextDocument where
  text := content.text
  encoding := content.encoding
  newLine := if containsCrlf content.text then .crlf else .lf
  finalNewLine := content.text.getLast? = some '\n'

/-- `TextDocument.Empty`. -/
def empty : TextDocument where
  text := []
  encoding := .utf8
  newLine := .crlf
  finalNewLine := true

def bytes (document : TextDocument) (value : Text) : Content := ⟨document.encoding, value⟩

end TextDocument

namespace WslConfig

variable (casing : Casing)

/-- The lines of `Merge` before they are joined. -/
def mergedLines (document : TextDocument) (entries : List (Text × Option Text)) : List Text :=
  let lines := dropEmptyLast (splitLines document.text)
  let merged := appendMissing casing entries
    (lines.foldl (mergeLine casing entries) ⟨[], [], false, false⟩)
  if merged.foundWsl2 then merged.result else appendSection entries merged.result

/-- `WslConfig.Merge`. -/
def merge (document : TextDocument) (entries : List (Text × Option Text)) : Text :=
  let merged := joinLines document.newLine (mergedLines casing document entries)
  if document.finalNewLine || document.text.isEmpty then merged ++ document.newLine.text
  else merged

end WslConfig

end SwitchTrade.Installer
