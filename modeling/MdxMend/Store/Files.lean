import MdxMend.Store.Resolve

/-!
# Operations on a store

Each operation gives a cause of failure or the store it leaves; one that fails changes nothing.
There are two exceptions. Making a folder with the folders above it goes in steps, and what it made
before it failed stays. And a write empties the file first: one that stops half way leaves what it
has written (`torn`).
-/

namespace MdxMend

/-- What an operation that works on a store ends with: its result, what it left in the store and
what it has logged. What it did before it failed stays. -/
structure Ended (α : Type) where
  result : Except Failure α
  store : Store
  log : Log

namespace Store

/-- The text of the file at a path. -/
def readText (s : Store) (p : Path) : Except IoCause Text := do
  match ← s.resolve .follow p with
  | .free _ => .error .notFound
  | .taken l n =>
    match s.faults.read l, n with
    | some cause, _ => .error cause
    | none, .folder => .error .isAFolder
    | none, .link _ => .error .linkLoop
    | none, .file bytes =>
      match Text.ofBytes? bytes with
      | some t => .ok t
      | none => .error .notText

/-- The location of the file that a path is written to. A link is written through, and leads to a
new file if there was none. -/
def fileFor (s : Store) (p : Path) : Except IoCause Location := do
  match ← s.resolve .make p with
  | .taken l (.file _) | .free l => .ok l
  | .taken _ .folder => .error .isAFolder
  | .taken _ (.link _) => .error .linkLoop

/-- Writes a file. -/
def write (s : Store) (p : Path) (bytes : ByteArray) : Except IoCause Store := do
  let l ← s.fileFor p
  match s.faults.write l bytes with
  | some fault => .error fault.cause
  | none => .ok (s.put l (.file bytes))

/-- What a fault leaves of the bytes that were to be written to a location. -/
def spoil (s : Store) (l : Location) (bytes : ByteArray) : WriteFault → Store
  | .refused _ => s
  | .cut size _ => s.put l (.file (bytes.extract 0 size))

/-- What a write leaves that fails. -/
def torn (s : Store) (p : Path) (bytes : ByteArray) : Store :=
  match s.fileFor p with
  | .error _ => s
  | .ok l =>
    match s.faults.write l bytes with
    | some fault => s.spoil l bytes fault
    | none => s

/-- Makes a link to a path. -/
def makeLink (s : Store) (p target : Path) : Except IoCause Store := do
  match pathFault? target with
  | some cause => .error cause
  | none =>
    match ← s.resolve .keep p with
    | .taken _ _ => .error .alreadyThere
    | .free l => .ok (s.put l (.link target))

/-- A path without the slashes at its end, which a folder to be made may have. -/
def withoutSlash (p : Path) : Path :=
  ⟨⟨(p.raw.bytes.reverse.dropWhile (· == Path.slash)).reverse⟩⟩

/-- Makes a folder in a folder that is there. -/
def makeFolder (s : Store) (p : Path) : Except IoCause Store := do
  match ← s.resolve .keep (withoutSlash p) with
  | .taken _ _ => .error .alreadyThere
  | .free l =>
    match s.faults.make l with
    | some cause => .error cause
    | none => .ok (s.put l .folder)

/-- Makes a folder unless it is there already. -/
def ensureFolder (s : Store) (p : Path) : Except IoCause Store :=
  match s.makeFolder p with
  | .ok s => .ok s
  | .error cause => if s.isFolder p then .ok s else .error cause

/-- Makes a folder and those above it, at most `fuel` of them. -/
def ensureFoldersUpTo (s : Store) (p : Path) : Nat → Except IoCause Unit × Store
  | 0 => (.error .notFound, s)
  | fuel + 1 =>
    if p.components.isEmpty then (.ok (), s)
    else
      match s.makeFolder p with
      | .ok s => (.ok (), s)
      | .error .notFound =>
        match p.parent? with
        | none => (.error .notFound, s)
        | some above =>
          match s.ensureFoldersUpTo above fuel with
          | (.error cause, s) => (.error cause, s)
          | (.ok (), s) =>
            match s.ensureFolder p with
            | .ok s => (.ok (), s)
            | .error cause => (.error cause, s)
      | .error cause => if s.isFolder p then (.ok (), s) else (.error cause, s)

/-- Makes a folder and those above it that are missing. -/
def ensureFolders (s : Store) (p : Path) : Except IoCause Unit × Store :=
  s.ensureFoldersUpTo p (p.raw.size + 1)

/-- The folder and the name that a path ends in, for an operation on the name itself. A path that
ends in the root, in a dot or in two has no such name. -/
def resolveName (s : Store) (p : Path) : Except IoCause Location := do
  match pathFault? p with
  | some cause => .error cause
  | none =>
    let names := ((Path.piecesOf p.raw.bytes).filter (· != [])).map RawText.mk
    match ← walk s .follow maxLinks (startOf p s.here) names.dropLast with
    | .taken l .folder =>
      match names.getLast? with
      | none => .error .busy
      | some name =>
        if name == "." || name == ".." then .error .busy
        else if maxNameSize < name.size then .error .nameTooLong
        else .ok (name :: l)
    | .taken _ _ => .error .notAFolder
    | .free _ => .error .notFound

/-- Moves a file to another path, in place of the file that was there. Neither path is followed if
it is a link: a link is moved or replaced like a file. To move a file to where it is does nothing.
-/
def moveFile (s : Store) (source target : Path) : Except IoCause Store := do
  match ← s.resolve .keep source with
  | .free _ => .error .notFound
  | .taken _ .folder => .error .isAFolder
  | .taken old n =>
    let new ← s.resolveName target
    if target.raw.bytes.getLast? == some Path.slash then .error .notAFolder
    else if old == new then .ok s
    else if s.get? new == some .folder then .error .isAFolder
    else
      match s.faults.move old new with
      | some cause => .error cause
      | none => .ok ((s.remove old).put new n)

end Store

end MdxMend
