import MplServer.Path.Basic

/-!
What is worked out on the text of a path alone: normal forms, the way from one place to another, and
endings on whole components.
-/

namespace MplServer.Path

/-! ## Normal forms -/

/-- One more component after a path that is already normal. A `..` takes back a name, stays put at
the root, and is kept where there is nothing to take back. -/
def climb (done : List Component) : Component → List Component
  | .current => done
  | .parent =>
      match done.getLast? with
      | some (.name _) => done.dropLast
      | some .root => done
      | _ => done ++ [.parent]
  | step => done ++ [step]

/-- The components that remain when every dot has been resolved. -/
def normalComponents (steps : List Component) : List Component :=
  steps.foldl climb []

/-- The path without `.`, and with `..` only where a relative path climbs out of its start. -/
def normalize (path : Path) : Path :=
  ofComponents (normalComponents path.components)

/-! ## Relative paths -/

/-- The way to `target` from `base` once they have parted: one `..` for each component of `base`
that is left, then what is left of `target`. There is no way out of a `..`. -/
def wayAround : (target base : List Component) → Option (List Component)
  | target, [] => some target
  | [], _ :: rest => some (List.replicate (rest.length + 1) .parent)
  | step :: target, .current :: base => (wayAround target base).map (step :: ·)
  | _ :: _, .parent :: _ => none
  | target, _ :: base => some (List.replicate (base.length + 1) .parent ++ target)

/-- The way to `target` from `base`: the components they begin with together are skipped. -/
def wayBetween : (target base : List Component) → Option (List Component)
  | step :: target, other :: base =>
      if step = other then wayBetween target base else wayAround (step :: target) (other :: base)
  | target, base => wayAround target base

/-- The way to `target` from `base`, as a path. From a relative base only an absolute target can be
reached, as it is; from an absolute base no relative target can. -/
def difference? (target base : Path) : Option Path :=
  if target.isAbsolute == base.isAbsolute then
    (wayBetween target.components base.components).map ofComponents
  else if target.isAbsolute then some target
  else none

/-- `target` written relative to `base`, both in normal form; `base` itself is a dot. -/
def relativeTo (base : Path) (target : String) : String :=
  let goal := (base.join ⟨target⟩).normalize
  match difference? goal base.normalize with
  | some way => if way.text.isEmpty then "." else way.text
  | none => goal.text

/-! ## Endings -/

/-- The components of a path but its root, with a slash between neighbours. -/
def slashed (path : Path) : String :=
  Text.joinWith '/' ((path.components.filter (· != .root)).map Component.text)

/-- `text` ends with `suffix`, and what comes before the suffix is nothing or ends with a slash. -/
def endsOnBoundary (text suffix : String) : Bool :=
  let head := text.toList.take (text.toList.length - suffix.toList.length)
  suffix.toList.isSuffixOf text.toList && (head.isEmpty || head.getLast? == some '/')

end MplServer.Path
