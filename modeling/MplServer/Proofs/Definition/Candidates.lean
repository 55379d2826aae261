import Mathlib.Data.List.Forall2
import MplServer.Definition.Resolver
import MplServer.Proofs.FileSystem.Walk
import MplServer.Proofs.Project.Enclosure

/-!
# Candidates and what they name

A recorded path is joined to the directories it may lie below, and the dots of the joined paths are
resolved on their texts. In a tree without links that loses nothing: what a path names is named by
its normal form, from every starting directory.
-/

namespace MplServer

variable {files : FileSystem} {entries : List (String × Node)}

/-- A regular file that a path names is named by its candidate as well. -/
structure FileSystem.KeepsFile (files : FileSystem) (path candidate : Path) : Prop where
  walked :
    ∀ place contents executable, files.reached? path = some place →
      files.root.at? place = some (.file contents executable) →
        files.reached? candidate = some place ∧ files.LeadsTo candidate place
  found :
    files.isFile path = true →
      files.isFile candidate = true ∧ files.locate candidate = files.locate path

namespace FileSystem

variable {path : Path} {place : Place}

/-- A path whose normal form is empty is walked to the starting directory, which is no file. -/
theorem text_normalize_ne_empty_of_reached
    {contents : Bytes} {executable : Bool}
    (inDirectory : files.root.at? files.workingDirectory = some (.directory entries))
    (reached : files.reached? path = some place)
    (isFile : files.root.at? place = some (.file contents executable)) :
    path.normalize.text ≠ "" := by
  intro empty
  have blank : path.normalize = ⟨""⟩ := congrArg Path.mk empty
  have stays := reached?_normalize reached
  rw [blank] at stays
  have atStart : files.workingDirectory = place := Option.some.inj stays
  rw [← atStart, inDirectory] at isFile
  cases isFile

theorem keepsFile_normalize
    (linkFree : files.root.LinkFree)
    (inDirectory : files.root.at? files.workingDirectory = some (.directory entries))
    (path : Path) :
    files.KeepsFile path path.normalize := by
  constructor
  · intro place contents executable reached isFile
    have nonempty := text_normalize_ne_empty_of_reached inDirectory reached isFile
    have onward := reached?_normalize reached
    exact ⟨onward, leadsTo_normalize linkFree inDirectory nonempty onward⟩
  · intro found
    obtain ⟨noNul, short, place, contents, executable, leads, isFile⟩ :=
      isFile_eq_true_iff.mp found
    have reached := reached?_of_leadsTo linkFree leads
    have nonempty := text_normalize_ne_empty_of_reached inDirectory reached isFile
    have located := locate_eq_ok_iff.mpr ⟨noNul, short, leads⟩
    have sameLocated := locate_normalize linkFree inDirectory nonempty located
    obtain ⟨candidateNoNul, candidateShort, candidateLeads⟩ := locate_eq_ok_iff.mp sameLocated
    constructor
    · exact isFile_eq_true_iff.mpr
        ⟨candidateNoNul, candidateShort, place, contents, executable, candidateLeads, isFile⟩
    · rw [sameLocated, located]

end FileSystem

namespace Resolver

/-- The paths a recorded path is joined to, in the order of the candidates made of them. -/
def joined (resolver : Resolver) (strategy : Strategy) (recorded : Path) : List Path :=
  match strategy with
  | .projectRoot => [resolver.root.join recorded]
  | .outputDirectory =>
      resolver.outputDirectory.toList.map fun directory =>
        (resolver.root.join directory).join recorded
  | .workspaceFolder =>
      resolver.otherFolders.flatMap fun folder =>
        folder.join recorded ::
          resolver.outputDirectory.toList.map fun directory =>
            (folder.join directory).join recorded
  | .fileName => []
  | .pathSuffix => []

theorem candidates_eq_map_joined
    (resolver : Resolver) (strategy : Strategy) (recorded : Path) :
    resolver.candidates strategy recorded =
      (resolver.joined strategy recorded).map Path.normalize := by
  cases strategy <;> rfl

theorem forall₂_keepsFile
    (linkFree : files.root.LinkFree)
    (inDirectory : files.root.at? files.workingDirectory = some (.directory entries))
    (resolver : Resolver) (strategy : Strategy) (recorded : Path) :
    List.Forall₂ files.KeepsFile (resolver.joined strategy recorded)
      (resolver.candidates strategy recorded) := by
  rw [candidates_eq_map_joined, List.forall₂_map_right_iff, List.forall₂_same]
  intro path _
  exact FileSystem.keepsFile_normalize linkFree inDirectory path

end Resolver

/-- In a tree without links and from any starting directory in it, a path and its normal form are
walked to the same node, and the file system leads to it unless the normal form is empty. So every
candidate of a resolver names the regular file that the path it is made of names. -/
theorem normal_forms_name_the_same
    (linkFree : files.root.LinkFree)
    (inDirectory : files.root.at? files.workingDirectory = some (.directory entries)) :
    (∀ path place, files.reached? path = some place →
        (∃ node, files.root.at? place = some node) ∧
          files.reached? path.normalize = some place ∧
            (path.normalize.text ≠ "" → files.LeadsTo path.normalize place)) ∧
      ∀ (resolver : Resolver) (strategy : Strategy) (recorded : Path),
        List.Forall₂ files.KeepsFile (resolver.joined strategy recorded)
          (resolver.candidates strategy recorded) := by
  constructor
  · intro path place reached
    have onward := FileSystem.reached?_normalize reached
    exact ⟨Node.exists_at?_of_walk? inDirectory reached, onward,
      fun nonempty => FileSystem.leadsTo_normalize linkFree inDirectory nonempty onward⟩
  · exact Resolver.forall₂_keepsFile linkFree inDirectory

/-- A path that climbs out of a directory beside the file, and a file recorded as lying beside the
directory of its project. -/
theorem main_in_yard_named_the_same :
    Project.yard.reached? (Path.normalize ⟨"./shed/../main.mpl"⟩) = some ["lib", "main.mpl"] ∧
      Project.yard.isFile
        (Path.normalize ((⟨"/lib/shed"⟩ : Path).join ⟨"../main.mpl"⟩)) = true := by
  obtain ⟨walks, keeps⟩ := normal_forms_name_the_same Project.yard_linkFree rfl
  constructor
  · exact (walks ⟨"./shed/../main.mpl"⟩ ["lib", "main.mpl"] (by decide)).2.1
  · have kept := keeps (Resolver.new ⟨"/lib/shed"⟩ "" []) .projectRoot ⟨"../main.mpl"⟩
    cases kept with
    | cons first _ => exact (first.found (by decide)).1

end MplServer
