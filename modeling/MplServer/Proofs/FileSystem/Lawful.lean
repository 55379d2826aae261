import MplServer.Proofs.Entries
import MplServer.Proofs.FileSystem.Travel

/-!
# Lawful trees

In a lawful tree the names of a directory are distinct, and each could stand between the slashes of
a path. Places below a place are found in the node at that place.
-/

namespace MplServer

/-- What a text must be to name an entry of a directory. -/
structure LegalName (text : String) : Prop extends Path.IsName text where
  noNul : '\x00' ∉ text.toList

instance (text : String) : Decidable (LegalName text) :=
  decidable_of_iff
    (text ≠ "" ∧ text ≠ "." ∧ text ≠ ".." ∧ '/' ∉ text.toList ∧ '\x00' ∉ text.toList)
    ⟨fun ⟨nonempty, notDot, notDots, unbroken, noNul⟩ =>
      ⟨⟨nonempty, notDot, notDots, unbroken⟩, noNul⟩,
    fun legal =>
      ⟨legal.nonempty, legal.notDot, legal.notDots, legal.unbroken, legal.noNul⟩⟩

namespace Node

/-- The names of every directory are legal and distinct, and the targets of links have no NUL
character. -/
inductive Lawful : Node → Prop where
  | file (contents : Bytes) (executable : Bool) : Lawful (.file contents executable)
  | symlink {target : String} (noNul : '\x00' ∉ target.toList) : Lawful (.symlink target)
  | directory {entries : List (String × Node)}
      (distinct : (entries.map Prod.fst).Nodup)
      (named : ∀ entry ∈ entries, LegalName entry.1)
      (below : ∀ entry ∈ entries, Lawful entry.2) :
      Lawful (.directory entries)

theorem at?_append (node : Node) (above below : Place) :
    node.at? (above ++ below) = (node.at? above).bind (·.at? below) := by
  induction above generalizing node with
  | nil => cases node <;> rfl
  | cons name others inductionHypothesis =>
      cases node with
      | file contents executable => rfl
      | symlink target => rfl
      | directory entries =>
          rw [List.cons_append, at?, at?]
          cases entries.lookup name with
          | none => rfl
          | some next => exact inductionHypothesis next

/-- Only a directory has a node further down. -/
theorem exists_lookup_of_at?_cons
    {node found : Node} {name : String} {rest : Place}
    (reached : node.at? (name :: rest) = some found) :
    ∃ entries next,
      node = .directory entries ∧ entries.lookup name = some next ∧
        next.at? rest = some found := by
  cases node with
  | file contents executable => cases reached
  | symlink target => cases reached
  | directory entries =>
      rw [at?] at reached
      cases looked : entries.lookup name with
      | none => simp [looked] at reached
      | some next =>
          rw [looked] at reached
          exact ⟨entries, next, rfl, looked, reached⟩

theorem at?_cons_of_lookup
    {entries : List (String × Node)} {name : String} {next : Node}
    (found : entries.lookup name = some next) (rest : Place) :
    (Node.directory entries).at? (name :: rest) = next.at? rest := by
  rw [at?, found]

theorem Lawful.at?
    {node found : Node} {names : Place}
    (lawful : node.Lawful)
    (reached : node.at? names = some found) :
    found.Lawful ∧ ∀ name ∈ names, LegalName name := by
  induction names generalizing node with
  | nil =>
      rw [Node.at?, Option.some.injEq] at reached
      subst reached
      exact ⟨lawful, by simp⟩
  | cons name rest inductionHypothesis =>
      obtain ⟨entries, next, rfl, looked, below⟩ := exists_lookup_of_at?_cons reached
      have member := mem_of_lookup_eq_some looked
      cases lawful with
      | directory distinct named lawfulBelow =>
          obtain ⟨foundLawful, restLegal⟩ :=
            inductionHypothesis (lawfulBelow _ member) below
          refine ⟨foundLawful, fun other inNames => ?_⟩
          rcases List.mem_cons.mp inNames with rfl | later
          · exact named _ member
          · exact restLegal other later

/-- The directory above a directory is one. -/
theorem exists_directory_dropLast
    {root : Node} {place : Place} {entries : List (String × Node)}
    (inDirectory : root.at? place = some (.directory entries)) :
    ∃ upper, root.at? place.dropLast = some (.directory upper) := by
  rcases List.eq_nil_or_concat' place with rfl | ⟨above, name, rfl⟩
  · exact ⟨entries, inDirectory⟩
  · rw [List.dropLast_concat]
    rw [at?_append] at inDirectory
    cases upper : root.at? above with
    | none => simp [upper] at inDirectory
    | some node =>
        rw [upper, Option.bind_some] at inDirectory
        obtain ⟨upperEntries, _, rfl, _, _⟩ := exists_lookup_of_at?_cons inDirectory
        exact ⟨upperEntries, rfl⟩

/-- Steps that end with a dot lead to a directory, and so do the steps before the dot. -/
theorem Leads.dropLast_dot
    {root : Node} {links : Nat} {place final : Place} {steps : List String}
    (leads : Leads root links place (steps ++ ["."]) final) :
    Leads root links place steps final ∧
      ∃ entries, root.at? final = some (.directory entries) := by
  obtain ⟨fewer, middle, bounded, before, last⟩ := leads.split rfl
  obtain ⟨inDirectory, onward⟩ := last.of_dot
  obtain rfl := onward.eq_of_nil
  exact ⟨before, inDirectory⟩

theorem Leads.directory_of_dots
    {root : Node} {links : Nat} {place final : Place} {steps : List String}
    (leads : Leads root links place (steps ++ [".."]) final) :
    ∃ entries, root.at? final = some (.directory entries) := by
  obtain ⟨fewer, middle, bounded, before, last⟩ := leads.split rfl
  obtain ⟨⟨entries, inDirectory⟩, onward⟩ := last.of_dots
  obtain rfl := onward.eq_of_nil
  exact exists_directory_dropLast inDirectory

end Node

end MplServer
