import MplServer.Path.Basic
import MplServer.Uri.Basic

/-!
URIs of files, and the file paths of URIs.
-/

namespace MplServer

namespace Uri

/-- The path a URI names, its segments decoded. Only a hierarchical URI without a foreign host names
one. A path that ends in a drive gets a slash. Paths are Unicode text: bytes that encode no
character are replaced, so URIs that differ in such bytes only may name one path. -/
def toPath? (uri : Uri) : Option Path :=
  match uri.host, uri.path.toList with
  | none, '/' :: rest => some (decoded rest)
  | some "localhost", '/' :: rest => some (decoded rest)
  | _, _ => none
where
  /-- The segments decoded one by one, each after a slash. -/
  decoded (path : List Char) : Path :=
    let bytes := (path.splitOn '/').flatMap fun segment =>
      47 :: decodeBytes (Text.encode (String.ofList segment))
    let text := Text.decodeLossy bytes
    if isDrive (text.toList.drop (text.toList.length - 2)) && 2 < bytes.length then ⟨text ++ "/"⟩
    else ⟨text⟩

/-- The URI of an absolute path: its components, each encoded. -/
def ofPath? (path : Path) : Option Uri :=
  if path.isAbsolute then
    let segments := path.components.tail.map fun step => encode inSegment step.text
    some {
      scheme := "file"
      authority := some ""
      host := none
      path := "/" ++ Text.joinWith '/' segments
      query := none
      fragment := none }
  else none

/-- The URI of a directory, which ends in a slash. -/
def ofDirectory? (path : Path) : Option Uri :=
  (ofPath? path).map fun uri =>
    if uri.path.toList.getLast? = some '/' then uri else { uri with path := uri.path ++ "/" }

end Uri

end MplServer
