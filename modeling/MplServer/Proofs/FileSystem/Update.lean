import MplServer.FileSystem.Entry
import MplServer.Proofs.FileSystem.Lawful
import MplServer.Proofs.FileSystem.Outline

/-!
# Changes to a tree

A change keeps a tree lawful, so every file system that is built entry by entry has a lawful tree. A
file that takes the place of another leaves the outline as it is.
-/

namespace MplServer

/-! ## Entries -/

theorem lookup_setEntry
    (entries : List (String × Node)) (name other : String) (node : Node) :
    (setEntry name node entries).lookup other =
      if other = name then some node else entries.lookup other := by
  induction entries with
  | nil =>
      rw [setEntry, List.lookup_cons]
      by_cases same : other = name
      · simp [same]
      · simp [same, beq_eq_false_iff_ne.mpr same]
  | cons entry others inductionHypothesis =>
      obtain ⟨first, old⟩ := entry
      rw [setEntry]
      by_cases bound : first = name
      · rw [if_pos bound, List.lookup_cons, List.lookup_cons, bound]
        by_cases same : other = name
        · simp [same]
        · simp [same, beq_eq_false_iff_ne.mpr same]
      · rw [if_neg bound, List.lookup_cons, List.lookup_cons, inductionHypothesis]
        by_cases same : other = first
        · have different : other ≠ name := same ▸ bound
          simp [same, bound]
        · simp [beq_eq_false_iff_ne.mpr same]

theorem mem_of_mem_setEntry
    {entries : List (String × Node)} {name : String} {node : Node}
    {entry : String × Node}
    (member : entry ∈ setEntry name node entries) :
    entry = (name, node) ∨ entry ∈ entries := by
  induction entries with
  | nil =>
      rw [setEntry, List.mem_singleton] at member
      exact Or.inl member
  | cons first others inductionHypothesis =>
      rw [setEntry] at member
      by_cases bound : first.1 = name
      · rw [if_pos bound] at member
        rcases List.mem_cons.mp member with new | later
        · exact Or.inl new
        · exact Or.inr (List.mem_cons_of_mem first later)
      · rw [if_neg bound] at member
        rcases List.mem_cons.mp member with rfl | later
        · exact Or.inr List.mem_cons_self
        · rcases inductionHypothesis later with new | old
          · exact Or.inl new
          · exact Or.inr (List.mem_cons_of_mem first old)

theorem nodup_setEntry
    {entries : List (String × Node)} {name : String} {node : Node}
    (distinct : (entries.map Prod.fst).Nodup) :
    ((setEntry name node entries).map Prod.fst).Nodup := by
  induction entries with
  | nil => simp [setEntry]
  | cons first others inductionHypothesis =>
      rw [setEntry]
      by_cases bound : first.1 = name
      · rw [if_pos bound]
        simpa [bound] using distinct
      · rw [if_neg bound]
        rw [List.map_cons, List.nodup_cons] at distinct ⊢
        refine ⟨fun again => ?_, inductionHypothesis distinct.2⟩
        obtain ⟨entry, member, sameName⟩ := List.mem_map.mp again
        rcases mem_of_mem_setEntry member with rfl | old
        · exact bound sameName.symm
        · exact distinct.1 (List.mem_map.mpr ⟨entry, old, sameName⟩)

namespace Node

theorem outlineEntries_setEntry
    {entries : List (String × Node)} {name : String} {node old : Node}
    (found : entries.lookup name = some old)
    (same : node.outline = old.outline) :
    outlineEntries (setEntry name node entries) = outlineEntries entries := by
  induction entries with
  | nil => cases found
  | cons entry others inductionHypothesis =>
      obtain ⟨first, value⟩ := entry
      rw [setEntry]
      by_cases bound : first = name
      · subst bound
        rw [List.lookup_cons_self, Option.some.injEq] at found
        rw [if_pos rfl, outlineEntries, outlineEntries, same, found]
      · rw [List.lookup_cons, beq_eq_false_iff_ne.mpr (Ne.symm bound)] at found
        rw [if_neg bound, outlineEntries, outlineEntries, inductionHypothesis found]

/-! ## One node put in place of another -/

theorem outline_put_of_file
    {root : Node} {place : Place} {old new : Bytes} {oldRuns newRuns : Bool}
    (there : root.at? place = some (.file old oldRuns)) :
    ((Node.file new newRuns).put root place).outline = root.outline := by
  induction place generalizing root with
  | nil =>
      rw [at?, Option.some.injEq] at there
      rw [there, put]
      rfl
  | cons name rest inductionHypothesis =>
      obtain ⟨entries, next, rfl, found, below⟩ := exists_lookup_of_at?_cons there
      rw [put, outline, outline,
        outlineEntries_setEntry found (by rw [found]; exact inductionHypothesis below)]

theorem at?_put_self
    {root : Node} {place : Place} {old new : Bytes} {oldRuns newRuns : Bool}
    (there : root.at? place = some (.file old oldRuns)) :
    ((Node.file new newRuns).put root place).at? place = some (.file new newRuns) := by
  induction place generalizing root with
  | nil => rfl
  | cons name rest inductionHypothesis =>
      obtain ⟨entries, next, rfl, found, below⟩ := exists_lookup_of_at?_cons there
      rw [put, at?_cons_of_lookup (by rw [lookup_setEntry, if_pos rfl]), found]
      exact inductionHypothesis below

/-- A file put in place of another changes nothing elsewhere but the entries of the directories that
lead to it. -/
theorem at?_put_of_ne
    {root : Node} {place other : Place} {old new : Bytes} {oldRuns newRuns : Bool}
    (there : root.at? place = some (.file old oldRuns))
    (different : other ≠ place) :
    ((Node.file new newRuns).put root place).at? other = root.at? other ∨
      ∃ before after,
        root.at? other = some (.directory before) ∧
          ((Node.file new newRuns).put root place).at? other =
            some (.directory after) := by
  induction place generalizing root other with
  | nil =>
      -- Nothing lies below a file.
      left
      rw [at?, Option.some.injEq] at there
      subst there
      cases other with
      | nil => exact absurd rfl different
      | cons name rest => rfl
  | cons name rest inductionHypothesis =>
      obtain ⟨entries, next, rfl, found, below⟩ := exists_lookup_of_at?_cons there
      rw [put, found, Option.getD_some]
      cases other with
      | nil => exact Or.inr ⟨_, _, rfl, rfl⟩
      | cons first others =>
          rw [at?, at?, lookup_setEntry]
          by_cases sameName : first = name
          · have deeper : others ≠ rest := by
              rintro rfl
              exact different (by rw [sameName])
            rw [if_pos sameName, sameName, found]
            exact inductionHypothesis below deeper
          · rw [if_neg sameName]
            exact Or.inl rfl

/-! ## Lawful trees stay lawful -/

theorem Lawful.directory_setEntry
    {entries : List (String × Node)} {name : String} {node : Node}
    (lawful : (Node.directory entries).Lawful)
    (legal : LegalName name) (nodeLawful : node.Lawful) :
    (Node.directory (setEntry name node entries)).Lawful := by
  cases lawful with
  | directory distinct named below =>
      refine .directory (nodup_setEntry distinct) ?_ ?_
      · intro entry member
        rcases mem_of_mem_setEntry member with rfl | old
        · exact legal
        · exact named entry old
      · intro entry member
        rcases mem_of_mem_setEntry member with rfl | old
        · exact nodeLawful
        · exact below entry old

theorem Lawful.of_lookup
    {entries : List (String × Node)} {name : String} {node : Node}
    (lawful : (Node.directory entries).Lawful)
    (found : entries.lookup name = some node) :
    node.Lawful := by
  cases lawful with
  | directory _ _ below => exact below _ (mem_of_lookup_eq_some found)

theorem lawful_empty : (Node.directory []).Lawful :=
  .directory (by simp) (by simp) (by simp)

theorem Lawful.put
    {root node : Node} {place : Place}
    (lawful : root.Lawful) (nodeLawful : node.Lawful)
    (legal : ∀ name ∈ place, LegalName name) :
    (node.put root place).Lawful := by
  induction place generalizing root with
  | nil => cases root <;> exact nodeLawful
  | cons name rest inductionHypothesis =>
      rw [List.forall_mem_cons] at legal
      cases root with
      | file contents executable => exact lawful
      | symlink target => exact lawful
      | directory entries =>
          refine lawful.directory_setEntry legal.1 (inductionHypothesis ?_ legal.2)
          cases found : entries.lookup name with
          | none => exact lawful_empty
          | some next => exact lawful.of_lookup found

theorem Lawful.directory_filter
    {entries : List (String × Node)} (keep : String × Node → Bool)
    (lawful : (Node.directory entries).Lawful) :
    (Node.directory (entries.filter keep)).Lawful := by
  cases lawful with
  | directory distinct named below =>
      refine .directory ?_ ?_ ?_
      · exact distinct.sublist (List.filter_sublist.map Prod.fst)
      · exact fun entry member => named entry (List.mem_of_mem_filter member)
      · exact fun entry member => below entry (List.mem_of_mem_filter member)

theorem Lawful.remove
    {root : Node} {place : Place}
    (lawful : root.Lawful)
    (legal : ∀ name ∈ place, LegalName name) :
    (root.remove place).Lawful := by
  induction place generalizing root with
  | nil => cases root <;> exact lawful
  | cons name rest inductionHypothesis =>
      rw [List.forall_mem_cons] at legal
      cases root with
      | file contents executable => exact lawful
      | symlink target => exact lawful
      | directory entries =>
          cases rest with
          | nil => exact lawful.directory_filter _
          | cons next others =>
              rw [Node.remove]
              · cases found : entries.lookup name with
                | none => exact lawful
                | some node =>
                    exact lawful.directory_setEntry legal.1
                      (inductionHypothesis (lawful.of_lookup found) legal.2)
              · simp

/-! ## Places have legal names -/

/-- A step that could be a name unless it is made of dots. -/
structure CleanStep (step : String) : Prop where
  nonempty : step ≠ ""
  unbroken : '/' ∉ step.toList
  noNul : '\x00' ∉ step.toList

theorem CleanStep.legal
    {step : String}
    (clean : CleanStep step) (notDot : step ≠ ".") (notDots : step ≠ "..") :
    LegalName step where
  nonempty := clean.nonempty
  notDot := notDot
  notDots := notDots
  unbroken := clean.unbroken
  noNul := clean.noNul

theorem cleanStep_of_mem_stepsOf
    {text step : String}
    (noNul : '\x00' ∉ text.toList)
    (member : step ∈ stepsOf text) :
    CleanStep step := by
  have ofPiece
      {piece : String}
      (kept : piece ∈ (Text.splitAt '/' text).filter (· ≠ "")) :
      CleanStep piece := by
    obtain ⟨inPieces, nonempty⟩ := List.mem_filter.mp kept
    exact
      { nonempty := by simpa using nonempty
        unbroken := Text.not_mem_of_mem_splitAt inPieces
        noNul := fun present => noNul (Text.mem_of_mem_splitAt inPieces present) }
  unfold stepsOf at member
  dsimp only at member
  split at member
  · rcases List.mem_append.mp member with kept | dot
    · exact ofPiece kept
    · rw [List.mem_singleton] at dot
      subst dot
      constructor <;> decide
  · exact ofPiece member

theorem legal_of_travel
    {root : Node} {keepLink allowFresh : Bool}
    {expand : Place → String → List String → Except FileError Place}
    {place final : Place} {steps : List String}
    (lawful : root.Lawful)
    (expanded : ∀ {place : Place} {target : String} {rest : List String},
      (∀ name ∈ place, LegalName name) → '\x00' ∉ target.toList →
        (∀ step ∈ rest, CleanStep step) → expand place target rest = .ok final →
          ∀ name ∈ final, LegalName name)
    (placeLegal : ∀ name ∈ place, LegalName name)
    (clean : ∀ step ∈ steps, CleanStep step)
    (travelled : root.travel keepLink allowFresh expand place steps = .ok final) :
    ∀ name ∈ final, LegalName name := by
  induction steps generalizing place with
  | nil =>
      rw [travel, Except.ok.injEq] at travelled
      exact travelled ▸ placeLegal
  | cons step rest inductionHypothesis =>
      rw [List.forall_mem_cons] at clean
      have longer
          (notDot : step ≠ ".") (notDots : step ≠ "..") :
          ∀ name ∈ place ++ [step], LegalName name := by
        intro name member
        rcases List.mem_append.mp member with old | new
        · exact placeLegal name old
        · rw [List.mem_singleton] at new
          exact new ▸ clean.1.legal notDot notDots
      obtain ⟨entries, inDirectory, taken⟩ := taken_of_travel_cons travelled
      cases taken with
      | dot onward => exact inductionHypothesis placeLegal clean.2 onward
      | dots onward =>
          have shorter : ∀ name ∈ place.dropLast, LegalName name :=
            fun name member => placeLegal name (List.mem_of_mem_dropLast member)
          exact inductionHypothesis shorter clean.2 onward
      | entry notDot notDots _ _ onward =>
          exact inductionHypothesis (longer notDot notDots) clean.2 onward
      | link _ _ found onward =>
          cases (lawful.at? inDirectory).1.of_lookup found with
          | symlink noNul => exact expanded placeLegal noNul clean.2 onward
      | kept notDot notDots _ _ here => exact here ▸ longer notDot notDots
      | fresh notDot notDots _ here => exact here ▸ longer notDot notDots

theorem legal_of_follow
    {root : Node} {keepLink allowFresh : Bool} {links : Nat}
    {place final : Place} {steps : List String}
    (lawful : root.Lawful)
    (placeLegal : ∀ name ∈ place, LegalName name)
    (clean : ∀ step ∈ steps, CleanStep step)
    (followed : root.follow keepLink allowFresh links place steps = .ok final) :
    ∀ name ∈ final, LegalName name := by
  induction links generalizing place steps with
  | zero =>
      refine legal_of_travel lawful (fun _ _ _ impossible => ?_) placeLegal clean followed
      cases impossible
  | succ fewer inductionHypothesis =>
      refine legal_of_travel lawful (fun above noNul restClean onward => ?_)
        placeLegal clean followed
      refine inductionHypothesis ?_ ?_ onward
      · split
        · simp
        · exact above
      · intro step member
        rcases List.mem_append.mp member with ofTarget | ofRest
        · exact cleanStep_of_mem_stepsOf noNul ofTarget
        · exact restClean step ofRest

end Node

/-! ## Lawful file systems -/

namespace FileSystem

/-- The tree is lawful, and so are the names that lead to the working directory. -/
structure Lawful (files : FileSystem) : Prop where
  root : files.root.Lawful
  workingDirectory : ∀ name ∈ files.workingDirectory, LegalName name

variable {files changed : FileSystem} {path : Path} {place : Place}

theorem Lawful.legal_of_locate
    {keepLink allowFresh : Bool}
    (lawful : files.Lawful)
    (located : files.locate path keepLink allowFresh = .ok place) :
    ∀ name ∈ place, LegalName name := by
  unfold locate at located
  by_cases nul : '\x00' ∈ path.text.toList
  · simp [nul] at located
  rw [if_neg (by simpa using nul)] at located
  split at located
  · cases located
  · split at located
    · cases located
    · refine Node.legal_of_follow lawful.root ?_
        (fun step member => Node.cleanStep_of_mem_stepsOf nul member) located
      split
      · simp
      · exact lawful.workingDirectory

theorem Lawful.put
    {node : Node}
    (lawful : files.Lawful) (nodeLawful : node.Lawful)
    (legal : ∀ name ∈ place, LegalName name) :
    (files.put place node).Lawful where
  root := lawful.root.put nodeLawful legal
  workingDirectory := lawful.workingDirectory

theorem Lawful.write
    {contents : Bytes} {executable : Option Bool}
    (lawful : files.Lawful)
    (written : files.write path contents executable = .ok changed) :
    changed.Lawful := by
  unfold FileSystem.write at written
  cases located : files.locate path false true with
  | error cause => simp [located, bind, Except.bind] at written
  | ok place =>
      have legal := lawful.legal_of_locate located
      simp only [located, bind, Except.bind] at written
      split at written
      · cases written
      · cases written
        exact lawful.put (.file _ _) legal
      · cases written
        exact lawful.put (.file _ _) legal

theorem Lawful.makeDirectories
    (lawful : files.Lawful)
    (made : files.makeDirectories path = .ok changed) :
    changed.Lawful := by
  unfold FileSystem.makeDirectories at made
  generalize List.range path.components.length = counts at made
  induction counts generalizing files with
  | nil =>
      cases made
      exact lawful
  | cons count others inductionHypothesis =>
      rw [List.foldlM_cons] at made
      cases located :
          files.locate (Path.ofComponents (path.components.take (count + 1))) false true with
      | error cause => simp [located, bind, Except.bind] at made
      | ok place =>
          have legal := lawful.legal_of_locate located
          simp only [located, bind, Except.bind] at made
          cases there : files.root.at? place with
          | none =>
              simp only [there, pure, Except.pure] at made
              exact inductionHypothesis (lawful.put Node.lawful_empty legal) made
          | some node =>
              cases node with
              | directory entries =>
                  simp only [there, pure, Except.pure] at made
                  exact inductionHypothesis lawful made
              | file contents executable =>
                  simp [there, throw, throwThe, MonadExceptOf.throw] at made
              | symlink target =>
                  simp [there, throw, throwThe, MonadExceptOf.throw] at made

theorem Lawful.makeLink
    {target : String}
    (lawful : files.Lawful)
    (made : files.makeLink path target = .ok changed) :
    changed.Lawful := by
  unfold FileSystem.makeLink at made
  by_cases nul : '\x00' ∈ target.toList
  · simp [nul] at made
  rw [if_neg (by simpa using nul)] at made
  split at made
  · cases made
  · cases located : files.locate path true true with
    | error cause => simp [located, bind, Except.bind] at made
    | ok place =>
        simp only [located, bind, Except.bind, pure, Except.pure, Except.ok.injEq] at made
        subst made
        exact lawful.put (.symlink nul) (lawful.legal_of_locate located)

theorem Lawful.remove
    (lawful : files.Lawful)
    (removed : files.remove path = .ok changed) :
    changed.Lawful := by
  unfold FileSystem.remove at removed
  cases located : files.locate path true with
  | error cause => simp [located, bind, Except.bind] at removed
  | ok place =>
      simp only [located, bind, Except.bind, pure, Except.pure, Except.ok.injEq] at removed
      subst removed
      exact
        { root := lawful.root.remove (lawful.legal_of_locate located)
          workingDirectory := lawful.workingDirectory }

theorem Lawful.makeAncestors
    (lawful : files.Lawful)
    (made : files.makeAncestors path = .ok changed) :
    changed.Lawful := by
  unfold FileSystem.makeAncestors at made
  split at made
  · split at made
    · cases made
      exact lawful
    · exact lawful.makeDirectories made
  · cases made
    exact lawful

theorem Lawful.placeEntry
    {entry : Entry}
    (lawful : files.Lawful)
    (placed : files.place entry = .ok changed) :
    changed.Lawful := by
  unfold FileSystem.place at placed
  split at placed
  · exact lawful.remove placed
  · exact lawful.makeDirectories placed
  · cases made : files.makeAncestors entry.path with
    | error cause => simp [made, bind, Except.bind] at placed
    | ok below =>
        simp only [made, bind, Except.bind] at placed
        exact (lawful.makeAncestors made).makeLink placed
  · cases made : files.makeAncestors entry.path with
    | error cause => simp [made, bind, Except.bind] at placed
    | ok below =>
        simp only [made, bind, Except.bind] at placed
        exact (lawful.makeAncestors made).write placed

/-- Whatever is placed in a lawful file system, it stays lawful. -/
theorem Lawful.placeAll
    (lawful : files.Lawful) (entries : List Entry) :
    (files.placeAll entries).Lawful := by
  unfold FileSystem.placeAll
  induction entries generalizing files with
  | nil => exact lawful
  | cons entry others inductionHypothesis =>
      rw [List.foldl_cons]
      apply inductionHypothesis
      cases placed : files.place entry with
      | error cause => exact lawful
      | ok changed => exact lawful.placeEntry placed

/-! ## A new document in a file -/

theorem outline_put_of_file
    {old new : Bytes} {oldRuns newRuns : Bool}
    (there : files.root.at? place = some (.file old oldRuns)) :
    files.outline = (files.put place (.file new newRuns)).outline := by
  unfold outline
  rw [FileSystem.put, Node.outline_put_of_file there]

/-- Only a path that leads to the file gives another text than before. -/
theorem readText_put_of_file
    {old new : Bytes} {oldRuns newRuns : Bool} {document changed : String}
    (there : files.root.at? place = some (.file old oldRuns))
    (oldText : textOf? old = some document)
    (newText : textOf? new = some changed) (path : Path) :
    files.readText path = (files.put place (.file new newRuns)).readText path ∨
      files.readText path = .ok document ∧
        (files.put place (.file new newRuns)).readText path = .ok changed := by
  have sameLocate :
      (files.put place (.file new newRuns)).locate path = files.locate path := by
    rw [← locate_outline, ← outline_put_of_file there, locate_outline]
  unfold readText FileSystem.read find
  rw [sameLocate]
  cases files.locate path with
  | error cause => exact Or.inl rfl
  | ok spot =>
      simp only [bind, Except.bind, FileSystem.put]
      by_cases same : spot = place
      · right
        subst same
        simp [there, Node.at?_put_self there, oldText, newText, pure, Except.pure]
      · left
        rcases Node.at?_put_of_ne there same with unchanged | ⟨_, _, before, after⟩
        · rw [unchanged]
        · rw [before, after]
          rfl

end FileSystem

end MplServer
