import Mathlib.Data.List.Sort

/-!
# Jobs.Text — the texts a job shows

`text.go`: a job's texts are trimmed and cut to a number of characters (`clip`), and the secrets of
the job are taken out of them first (`Hider`). A text here is valid Unicode, so the step of the
source that makes it so has nothing to do.
-/

namespace NasnetPanel.Jobs

def isSpace (c : Char) : Bool :=
  let n := c.toNat
  (9 ≤ n && n ≤ 13) || n == 0x20 || n == 0x85 || n == 0xA0 || n == 0x1680 ||
    (0x2000 ≤ n && n ≤ 0x200A) || n == 0x2028 || n == 0x2029 || n == 0x202F || n == 0x205F ||
    n == 0x3000

def trimSpace (s : List Char) : List Char :=
  ((s.dropWhile isSpace).reverse.dropWhile isSpace).reverse

/-- Trimmed, and cut to at most `max` characters, the last an ellipsis where it was cut. -/
def clip (max : Nat) (s : String) : String :=
  let cs := trimSpace s.toList
  String.ofList (if cs.length ≤ max then cs else cs.take (max - 1) ++ ['…'])

/-- `strings.ReplaceAll` of a word by an ellipsis; `skip` characters of a word are still to pass. -/
def replaceWord (word : List Char) : Nat → List Char → List Char
  | _, [] => []
  | skip + 1, _ :: cs => replaceWord word skip cs
  | 0, c :: cs =>
    if word.isPrefixOf (c :: cs) then '…' :: replaceWord word (word.length - 1) cs
    else c :: replaceWord word 0 cs

/-- The words to take out, the longest first. -/
structure Hider where
  words : List String
deriving DecidableEq, Repr

def minLine : Nat := 8

/-- The words of one secret: whole, trimmed, and by the line. -/
def secretWords (secret : String) : List String :=
  let cs := secret.toList
  if trimSpace cs = [] then []
  else
    secret :: String.ofList (trimSpace cs) ::
      if cs.contains '\n' then
        (((cs.splitOn '\n').map trimSpace).filter fun line =>
          minLine ≤ line.length).map String.ofList
      else []

/-- `none` when there is nothing to hide. -/
def newHider (secrets : List String) : Option Hider :=
  let words := (secrets.flatMap secretWords).foldl
    (fun words w => if w = "" ∨ w ∈ words then words else words ++ [w]) []
  if words = [] then none
  else some ⟨words.insertionSort fun a b => b.utf8ByteSize ≤ a.utf8ByteSize⟩

def Hider.hide (h : Hider) (s : String) : String :=
  String.ofList (h.words.foldl (fun cs w => replaceWord w.toList 0 cs) s.toList)

/-- `job.text`: the secrets are taken out before the cut. -/
def jobText (hide : Option Hider) (max : Nat) (s : String) : String :=
  clip max (match hide with
    | some h => h.hide s
    | none => s)

end NasnetPanel.Jobs
