import MplServer.Text.Basic

/-!
File paths. A path is its exact text; what it means is read off its components, so two texts such
as `/a/b` and `/a//b/.` are different paths with the same components.
-/

namespace MplServer

/-- A path, kept as it was written. It is a Unicode text; other names of files are left out. -/
structure Path where
  text : String
deriving DecidableEq, Repr, Inhabited

namespace Path

inductive Component where
  /-- The slash an absolute path begins with. -/
  | root
  /-- The dot a relative path may begin with. -/
  | current
  /-- Two dots. -/
  | parent
  /-- A file name. -/
  | name (text : String)
deriving DecidableEq, Repr, Inhabited

def Component.text : Component → String
  | .root => "/"
  | .current => "."
  | .parent => ".."
  | .name text => text

/-- What a piece between slashes stands for. Empty pieces and single dots stand for nothing. -/
def Component.ofPiece? (piece : String) : Option Component :=
  if piece = "" ∨ piece = "." then none
  else if piece = ".." then some .parent
  else some (.name piece)

/-- The texts between the slashes of a path. -/
def pieces (path : Path) : List String :=
  Text.splitAt '/' path.text

def isAbsolute (path : Path) : Bool :=
  path.text.toList.head? == some '/'

/-- The steps of a path. A dot counts only at the start of a relative path. -/
def components (path : Path) : List Component :=
  let steps := path.pieces.filterMap Component.ofPiece?
  if path.isAbsolute then .root :: steps
  else if path.pieces.head? = some "." then .current :: steps
  else steps

/-- The shortest text with the given components. -/
def ofComponents : List Component → Path
  | .root :: steps => ⟨"/" ++ Text.joinWith '/' (steps.map Component.text)⟩
  | steps => ⟨Text.joinWith '/' (steps.map Component.text)⟩

/-- Two paths name the same place in every tree without links: their components agree. -/
def sameAs (left right : Path) : Bool :=
  left.components = right.components

/-- `path` lies at or below `ancestor`, component by component. -/
def startsWith (path ancestor : Path) : Bool :=
  ancestor.components.isPrefixOf path.components

/-- `path` followed by `next`. An absolute `next` replaces `path`; otherwise a slash is put between
them unless `path` is empty or ends with one. -/
def join (path next : Path) : Path :=
  if next.isAbsolute then next
  else if path.text.isEmpty || path.text.toList.getLast? == some '/' then ⟨path.text ++ next.text⟩
  else ⟨path.text ++ "/" ++ next.text⟩

def child (path : Path) (name : String) : Path :=
  path.join ⟨name⟩

/-- The pieces that are left when the last one with a meaning is cut off, together with the
meaningless ones around it. -/
def withoutLast (pieces : List String) : List String :=
  let meaningless := fun piece => (Component.ofPiece? piece).isNone
  (((pieces.reverse.dropWhile meaningless).drop 1).dropWhile meaningless).reverse

/-- The text before the last component. The root and the empty path have no parent. -/
def parent? (path : Path) : Option Path :=
  let hasName := path.pieces.any fun piece => (Component.ofPiece? piece).isSome
  if path.isAbsolute then
    if hasName then some ⟨"/" ++ Text.joinWith '/' (withoutLast path.pieces.tail)⟩ else none
  else if path.pieces.head? = some "." then
    if hasName then some ⟨Text.joinWith '/' ("." :: withoutLast path.pieces.tail)⟩ else some ⟨""⟩
  else
    if hasName then some ⟨Text.joinWith '/' (withoutLast path.pieces)⟩ else none

/-- The last component, when it is a name. -/
def fileName? (path : Path) : Option String :=
  match path.components.getLast? with
  | some (.name name) => some name
  | _ => none

/-- A file name cut at its last dot. A name whose only dot comes first, and `..`, is not cut. -/
def cutName (name : String) : String × Option String :=
  if name = ".." then (name, none)
  else
    let after := (name.toList.reverse.takeWhile (· != '.')).reverse
    let before := (name.toList.reverse.dropWhile (· != '.')).drop 1 |>.reverse
    if before.isEmpty then (name, none) else (String.ofList before, some (String.ofList after))

def stem? (path : Path) : Option String :=
  path.fileName?.map fun name => (cutName name).1

def extension? (path : Path) : Option String :=
  path.fileName?.bind fun name => (cutName name).2

/-- `path` as seen from `directory`, an absolute path: empty pieces and dots are dropped, `..` and a
final slash are kept. Exactly two leading slashes stay two. The empty path stays as it is. -/
def absolute (directory path : Path) : Path :=
  if path.text.isEmpty then path
  else
    let steps := path.components.filter fun step => step != .root && step != .current
    let names : Path := ofComponents steps
    let start : Path :=
      if path.isAbsolute then
        match path.text.toList with
        | '/' :: '/' :: '/' :: _ => ⟨"/"⟩
        | '/' :: '/' :: _ => ⟨"//"⟩
        | _ => ⟨"/"⟩
      else directory
    let whole := if steps.isEmpty then start else start.join names
    if path.text.toList.getLast? == some '/' then whole.join ⟨""⟩ else whole

end Path

end MplServer
