import MdxMend.Store.Basic

/-!
# From paths to locations

A path is followed name by name from the folder it starts in. A link on the way is replaced by the
path it holds; a link at the end is followed or not, as the operation wants. Only so many links are
followed, because links can lead to each other in a circle.

A slash at the end of a path is a step of its own. Like a dot it asks for a folder; but a file that
is to be made there is refused before its name is looked up.
-/

namespace MdxMend.Store

/-- Where a path leads: to something that is there, or to a name that its folder does not have. -/
inductive Spot where
  | taken (l : Location) (n : Node)
  | free (l : Location)

/-- What a path is followed for: what is behind a link at its end, the link itself, or a file to be
made. -/
inductive Purpose where
  | follow
  | keep
  | make
deriving DecidableEq, Repr

/-- The step that a slash at the end of a path asks for. -/
def slashStep : RawText := ""

/-- The steps that a path asks for. -/
def stepsOf (p : Path) : List RawText :=
  let pieces := Path.piecesOf p.raw.bytes
  let names := (pieces.filter (· != [])).map RawText.mk
  if pieces.getLast? == some [] then names ++ [slashStep] else names

/-- Whether a step stays in its folder. -/
def staysHere (step : RawText) : Bool := step == slashStep || step == "."

/-- The location that a path starts from when it is read in a folder. -/
def startOf (p : Path) (folder : Location) : Location := if p.isAbsolute then [] else folder

/-- The number of links that are followed. -/
def maxLinks : Nat := 40

/-- The number of bytes that a name may have. -/
def maxNameSize : Nat := 255

/-- The number of bytes that a path may have. -/
def maxPathSize : Nat := 4095

/-- Takes steps from a location. `links` is the number of links that may still be followed. -/
def walk (s : Store) (purpose : Purpose) (links : Nat) (l : Location) (steps : List RawText) :
    Except IoCause Spot :=
  match s.get? l, steps with
  | none, _ => .error .notFound
  | some n, [] => .ok (.taken l n)
  | some .folder, name :: rest =>
    if staysHere name then walk s purpose links l rest
    else if name == ".." then walk s purpose links l.tail rest
    else if purpose == .make && rest == [slashStep] then .error .isAFolder
    else if maxNameSize < name.size then .error .nameTooLong
    else
      match s.get? (name :: l) with
      | none => if rest.isEmpty then .ok (.free (name :: l)) else .error .notFound
      | some (.link target) =>
        if rest.isEmpty && purpose == .keep then .ok (.taken (name :: l) (.link target))
        else
          match links with
          | 0 => .error .linkLoop
          | links + 1 => walk s purpose links (startOf target l) (stepsOf target ++ rest)
      | some _ => walk s purpose links (name :: l) rest
  | some _, _ :: _ => .error .notAFolder
termination_by (links, steps.length)

/-- What is wrong with a path as it is written. -/
def pathFault? (p : Path) : Option IoCause :=
  if p.raw.bytes.contains 0 then some .nulInName
  else if p.isEmpty then some .notFound
  else if maxPathSize < p.raw.size then some .nameTooLong
  else none

/-- Where a path leads. The empty path leads nowhere. -/
def resolve (s : Store) (purpose : Purpose) (p : Path) : Except IoCause Spot :=
  match pathFault? p with
  | some cause => .error cause
  | none => walk s purpose maxLinks (startOf p s.here) (stepsOf p)

/-- What there is at a path, behind all links. -/
def find? (s : Store) (p : Path) : Option Node :=
  match s.resolve .follow p with
  | .ok (.taken _ n) => some n
  | _ => none

/-- Whether there is anything at a path. -/
def isThere (s : Store) (p : Path) : Bool := (s.find? p).isSome

/-- Whether there is a folder at a path. -/
def isFolder (s : Store) (p : Path) : Bool := s.find? p == some .folder

end MdxMend.Store
