import NasnetPanel.Lib.CrashProg
import NasnetPanel.Lib.GoMap
import NasnetPanel.Lib.GoPath

/-!
# Update.Bundle — unpacking an uploaded bundle

`unpackBundle` extracts a tarball below a directory and checks every file it wrote against the
signed `bundle.json` (`update/usecase/bundle.go`). The tarball is what the tar and gzip readers
give of it: any names, types, sizes and contents, in any order and any number, ending well or
damaged. Any call on the disk may fail, and a write may run out of room.

File modes are not modelled. Paths are followed without links: the directory is new and no entry
makes a link.
-/

namespace NasnetPanel.Update.Unpack
open CrashProg CrashProg.Prog GoPath

abbrev Bytes := List UInt8

/-! ## The disk -/

inductive Node where
  | dir
  | file (content : Bytes)
deriving DecidableEq, Repr

structure Tree where
  /-- What is at an absolute path. -/
  nodes : List Name → Option Node
  /-- How many bytes were written so far. Not in the source. -/
  written : Nat := 0

def Tree.put (t : Tree) (p : List Name) (n : Node) : Tree :=
  { t with nodes := fun q => if q = p then some n else t.nodes q }

inductive Call where
  | mkdir (p : List Name)
  | openFile (p : List Name)
  | write (p : List Name) (data : Bytes)
  | close
  | readFile (p : List Name)
deriving DecidableEq, Repr

/-- How a call goes: it may fail, and a write may find room for some of its bytes only. -/
structure Answer where
  fails : Bool := false
  room : Option Nat := none
deriving DecidableEq, Repr

abbrev Reply : Call → Type
  | .write _ _ => Nat × Bool
  | .readFile _ => Option Bytes
  | _ => Bool

/-- What a call replies and leaves. A new entry needs its directory. -/
def exec : (c : Call) → Answer → Tree → Reply c × Tree
  | .mkdir p, ans, t =>
    if ans.fails then (false, t)
    else match t.nodes p with
      | some .dir => (true, t)
      | some (.file _) => (false, t)
      | none => if t.nodes p.dropLast = some .dir then (true, t.put p .dir) else (false, t)
  | .openFile p, ans, t =>
    if ans.fails ∨ t.nodes p = some .dir ∨ t.nodes p.dropLast ≠ some .dir then (false, t)
    else (true, t.put p (.file []))
  | .write p data, ans, t =>
    let n := ans.room.elim data.length (min · data.length)
    ((n, ans.room.isNone), { t.put p (.file (data.take n)) with written := t.written + n })
  | .close, ans, t => (!ans.fails, t)
  | .readFile p, ans, t =>
    if ans.fails then (none, t)
    else match t.nodes p with
      | some (.file content) => (some content, t)
      | _ => (none, t)

/-! ## The tarball -/

inductive Typeflag where
  | dir | reg | other
deriving DecidableEq, Repr

structure Entry where
  name : Text
  typeflag : Typeflag
  size : Int64
  /-- What the reader gives of the file, up to its end or the error. -/
  data : Bytes := []
  readError : Option String := none
deriving DecidableEq, Repr

inductive Tarball where
  | unopened (err : String)
  | notGzip (err : String)
  | stream (entries : List Entry) (damage : Option String)
deriving DecidableEq, Repr

/-- `bundle.json`. -/
structure Bundle where
  schema : Nat
  version : Text
  minFrom : Text
  arch : Text
  files : GoMap Text Text

/-- What unpacking uses and does not define: the hash, in hex, the signature check, and the readers
of JSON and of versions. -/
structure Env where
  sha256 : Bytes → Text
  verify : (data sig : Bytes) → Bool
  unmarshal : Bytes → Option Bundle
  isVersion : Text → Bool

inductive Error where
  | open (err : String)
  | notGzip (err : String)
  | damaged (err : String)
  | outside (name : Text)
  | escapes (name : Text)
  | notPlain (rel : Text)
  | tooManyFiles
  | tooLarge
  | disk (p : List Name)
  | read (err : String)
  | cutShort (dest : List Name)
  | noManifest
  | noSignature
  | signature
  | unreadable
  | schema
  | version
  | namesNothing
  | mismatch (rel : Text)
  | unlisted (rel : Text)
deriving DecidableEq, Repr

abbrev Program := ExceptT Error (Prog Call Reply)

abbrev ask (c : Call) : Program (Reply c) := request c

/-! ## Names -/

def bundleTopPrefix : Text := "nasnet-panel-offline-linux-".toList

def maxBundleFiles : Nat := 64

def maxUnpacked : Int64 := 2147483648

def bundleName : Text := "bundle.json".toList

def sigSuffix : Text := ".sig".toList

def trimPrefix (start p : Text) : Text := if start <+: p then p.drop start.length else p

/-- `strings.Cut(p, "/")`. -/
def cut (p : Text) : Text × Text := (p.takeWhile (· ≠ '/'), (p.dropWhile (· ≠ '/')).tail)

/-- A tar entry's path inside the bundle, without the top directory; empty for that directory. -/
def bundleEntry (entry : Text) : Except Error Text :=
  let name := trimPrefix "./".toList entry
  let (top, rest) := cut name
  if ¬ bundleTopPrefix <+: top then .error (.outside name)
  else if rest = [] then .ok []
  else if isAbs (clean rest) ∨ clean rest = dotdot ∨ dotdot ++ ['/'] <+: clean rest then
    .error (.escapes name)
  else .ok (clean rest)

def unsignedBundleFile (rel : Text) : Bool :=
  rel = bundleName ∨ rel = bundleName ++ sigSuffix ∨ rel = "checksums.txt".toList

/-- `strings.EqualFold` against lower-case hex digits, which fold with ASCII letters only. -/
def equalFold (got want : Text) : Bool := got.map Char.toLower = want.map Char.toLower

/-! ## Writing -/

/-- The directories of a path, from one that is there on. -/
def makeDirs (above : List Name) : List Name → Program Unit
  | [] => pure ()
  | n :: rest => do
    let made ← ask (.mkdir (above ++ [n]))
    ensure made (.disk (above ++ [n]))
    makeDirs (above ++ [n]) rest

def mkdirAll (p : List Name) : Program Unit := makeDirs [] p

/-- The error `io.Copy` ends with: of the write, or of the reader where it gave too little. -/
def copyError (dest : List Name) (e : Entry) (wrote : Bool) : Option Error :=
  if !wrote then some (.disk dest)
  else if e.data.length < e.size.toInt.toNat then e.readError.map .read
  else none

/-- The bytes of an entry, at most as many as its header says, to the file and through the hash. -/
def writeEntry (env : Env) (dest : List Name) (e : Entry) : Program Text := do
  mkdirAll dest.dropLast
  let opened ← ask (.openFile dest)
  ensure opened (.disk dest)
  let data := e.data.take e.size.toInt.toNat
  let copied ← ask (.write dest data)
  let closed ← ask .close
  match copyError dest e copied.2 with
  | some err => throw err
  | none => do
    ensure closed (.disk dest)
    ensure ((copied.1 : Int) = e.size.toInt) (.cutShort dest)
    pure (env.sha256 data)

/-! ## Unpacking -/

/-- The variables of the loop. -/
structure Sums where
  sums : GoMap Text Text := ∅
  total : Int64 := 0

def unpackFile (env : Env) (dest : List Name) (rel : Text) (e : Entry) (s : Sums) :
    Program Sums := do
  ensure (s.sums.size < maxBundleFiles) .tooManyFiles
  ensure (s.total + e.size ≤ maxUnpacked) .tooLarge
  let sum ← writeEntry env dest e
  pure { sums := s.sums.insert rel sum, total := s.total + e.size }

def unpackEntry (env : Env) (dir : Dir) (e : Entry) (s : Sums) : Program Sums :=
  match bundleEntry e.name with
  | .error err => throw err
  | .ok [] => pure s
  | .ok rel =>
    let dest := resolve (dir.join rel)
    match e.typeflag with
    | .dir => do
      mkdirAll dest
      pure s
    | .reg => unpackFile env dest rel e s
    | .other => throw (.notPlain rel)

def unpackEntries (env : Env) (dir : Dir) : List Entry → Sums → Program Sums
  | [], s => pure s
  | e :: rest, s => do
    let s ← unpackEntry env dir e s
    unpackEntries env dir rest s

def Env.parseSigned (env : Env) (data sig : Bytes) : Except Error Bundle :=
  if env.verify data sig then
    match env.unmarshal data with
    | some b => .ok b
    | none => .error .unreadable
  else .error .signature

def Env.checkHeader (env : Env) (b : Bundle) : Except Error Unit :=
  if b.schema ≠ 1 then .error .schema
  else if ¬ env.isVersion b.version then .error .version
  else if b.minFrom ≠ [] ∧ ¬ env.isVersion b.minFrom then .error .version
  else .ok ()

def Env.parseBundle (env : Env) (data sig : Bytes) : Except Error Bundle :=
  match env.parseSigned data sig with
  | .error e => .error e
  | .ok b =>
    match env.checkHeader b with
    | .error e => .error e
    | .ok _ => if b.arch = [] ∨ b.files.size = 0 then .error .namesNothing else .ok b

def readUnpackedBundle (env : Env) (dir : Dir) : Program Bundle := do
  match ← ask (.readFile (resolve (dir.join bundleName))) with
  | none => throw .noManifest
  | some data =>
    match ← ask (.readFile (resolve (dir.join (bundleName ++ sigSuffix)))) with
    | none => throw .noSignature
    | some sig => ExceptT.mk (pure (env.parseBundle data sig))

/-- The files unpacked against the signed list, both ways. -/
def checkSums (b : Bundle) (sums : GoMap Text Text) : Except Error Unit :=
  match b.files.toList.find? (fun f => !sums[f.1]?.any (equalFold · f.2)) with
  | some f => .error (.mismatch f.1)
  | none =>
    match sums.toList.find? (fun f => !b.files.contains f.1 && !unsignedBundleFile f.1) with
    | some f => .error (.unlisted f.1)
    | none => .ok ()

def unpackBundle (env : Env) (tarball : Tarball) (dir : Dir) : Program Bundle :=
  match tarball with
  | .unopened err => throw (.open err)
  | .notGzip err => throw (.notGzip err)
  | .stream entries damage => do
    let s ← unpackEntries env dir entries {}
    match damage with
    | some err => throw (.damaged err)
    | none => do
      let b ← readUnpackedBundle env dir
      ExceptT.mk (pure (checkSums b s.sums))
      pure b

end NasnetPanel.Update.Unpack
