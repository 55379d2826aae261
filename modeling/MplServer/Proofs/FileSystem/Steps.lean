import MplServer.Proofs.FileSystem.Located

/-!
# Steps and components

The steps a path asks for are the texts of its components, but for dots. Dots lead nowhere else, so
where a path leads can be read off its components.
-/

namespace MplServer

namespace Node

variable {root : Node} {links : Nat} {place final : Place} {rest : List String}

/-- Steps are taken from directories. -/
theorem Leads.directory_of_cons
    {step : String}
    (leads : Leads root links place (step :: rest) final) :
    ∃ entries, root.at? place = some (.directory entries) := by
  cases leads with
  | dot inDirectory => exact ⟨_, inDirectory⟩
  | dots inDirectory => exact ⟨_, inDirectory⟩
  | entry inDirectory => exact ⟨_, inDirectory⟩
  | link inDirectory => exact ⟨_, inDirectory⟩

/-- A name stands for an entry, which is stepped into or is a link. -/
theorem Leads.of_name
    {name : String}
    (leads : Leads root links place (name :: rest) final)
    (notDot : name ≠ ".") (notDots : name ≠ "..") :
    ∃ entries node,
      root.at? place = some (.directory entries) ∧ entries.lookup name = some node ∧
        ((∃ target, node = .symlink target) ∨
          Leads root links (place ++ [name]) rest final) := by
  cases leads with
  | dot => exact absurd rfl notDot
  | dots => exact absurd rfl notDots
  | entry inDirectory _ _ found noLink onward =>
      exact ⟨_, _, inDirectory, found, Or.inr onward⟩
  | @link _ _ _ _ target _ _ inDirectory _ _ found onward =>
      exact ⟨_, _, inDirectory, found, Or.inl ⟨target, rfl⟩⟩

/-- Names that lead down the tree to a node that is no link lead there as steps. -/
theorem Leads.along
    {names : Place} {node : Node} (links : Nat)
    (reached : root.at? (place ++ names) = some node)
    (noLink : ∀ target, node ≠ .symlink target)
    (ordinary : ∀ name ∈ names, name ≠ "." ∧ name ≠ "..") :
    Leads root links place names (place ++ names) := by
  induction names generalizing place with
  | nil =>
      rw [List.append_nil]
      exact .stop links place
  | cons name others inductionHypothesis =>
      have deeper : root.at? ((place ++ [name]) ++ others) = some node := by
        rwa [List.append_assoc]
      rw [at?_append] at reached
      cases here : root.at? place with
      | none => simp [here] at reached
      | some upper =>
          rw [here, Option.bind_some] at reached
          obtain ⟨entries, next, rfl, found, below⟩ := exists_lookup_of_at?_cons reached
          have nextNoLink : ∀ target, next ≠ .symlink target := by
            rintro target rfl
            cases others with
            | nil =>
                rw [at?, Option.some.injEq] at below
                exact noLink target below.symm
            | cons _ _ => cases below
          rw [List.forall_mem_cons] at ordinary
          have onward := inductionHypothesis deeper ordinary.2
          rw [List.append_assoc] at onward
          exact .entry here ordinary.1.1 ordinary.1.2 found nextNoLink onward

/-- Steps lead to the same place without the dots behind the first of them. -/
theorem Leads.filter_dots_append
    {whole front : List String}
    (leads : Leads root links place whole final)
    (parts : whole = front ++ rest) :
    Leads root links place (front ++ rest.filter (· ≠ ".")) final := by
  induction leads generalizing front rest with
  | stop links place =>
      obtain ⟨rfl, rfl⟩ := List.append_eq_nil_iff.mp parts.symm
      exact .stop links place
  | dot inDirectory onward inductionHypothesis =>
      cases front with
      | nil =>
          obtain rfl := parts
          have dropped := @inductionHypothesis _ [] rfl
          simpa using dropped
      | cons step others =>
          obtain ⟨rfl, rfl⟩ := List.cons.inj parts
          exact .dot inDirectory (inductionHypothesis rfl)
  | dots inDirectory onward inductionHypothesis =>
      cases front with
      | nil =>
          obtain rfl := parts
          have dropped := @inductionHypothesis _ [] rfl
          rw [List.nil_append, List.filter_cons_of_pos (by decide)]
          exact .dots inDirectory dropped
      | cons step others =>
          obtain ⟨rfl, rfl⟩ := List.cons.inj parts
          exact .dots inDirectory (inductionHypothesis rfl)
  | entry inDirectory notDot notDots found noLink onward inductionHypothesis =>
      cases front with
      | nil =>
          obtain rfl := parts
          have dropped := @inductionHypothesis _ [] rfl
          rw [List.nil_append, List.filter_cons_of_pos (by simpa using notDot)]
          exact .entry inDirectory notDot notDots found noLink dropped
      | cons step others =>
          obtain ⟨rfl, rfl⟩ := List.cons.inj parts
          exact .entry inDirectory notDot notDots found noLink (inductionHypothesis rfl)
  | link inDirectory notDot notDots found onward inductionHypothesis =>
      -- The steps of the link's target are left as they are.
      cases front with
      | nil =>
          obtain rfl := parts
          rw [List.nil_append, List.filter_cons_of_pos (by simpa using notDot)]
          exact .link inDirectory notDot notDots found (inductionHypothesis rfl)
      | cons step others =>
          obtain ⟨rfl, rfl⟩ := List.cons.inj parts
          have dropped := inductionHypothesis (List.append_assoc ..).symm
          rw [List.append_assoc] at dropped
          exact .link inDirectory notDot notDots found dropped

theorem Leads.filter_dots
    {steps : List String}
    (leads : Leads root links place steps final) :
    Leads root links place (steps.filter (· ≠ ".")) final :=
  @Leads.filter_dots_append _ _ _ _ _ _ [] leads rfl

theorem Leads.unique
    {other : Place} {steps : List String}
    (leads : Leads root links place steps final)
    (alike : Leads root links place steps other) :
    final = other := by
  rw [← follow_eq_ok_iff] at leads alike
  rw [leads, Except.ok.injEq] at alike
  exact alike

end Node

/-! ## The steps of a path -/

/-- Without its dots, a text asks for the steps of the path. -/
theorem filter_stepsOf (text : String) :
    (stepsOf text).filter (· ≠ ".") =
      (Path.steps ⟨text⟩).map Path.Component.text := by
  have named := Path.map_text_filterMap_ofPiece? (Text.splitAt '/' text)
  unfold stepsOf Path.steps Path.pieces
  rw [named]
  split
  · rw [List.filter_append]
    simp
  · rfl

namespace FileSystem

variable {files : FileSystem} {path : Path} {place : Place}

theorem LeadsTo.leads_steps
    (leads : files.LeadsTo path place) :
    files.root.Leads maxLinks (files.start path) (path.steps.map Path.Component.text)
      place := by
  have dropped := leads.2.filter_dots
  rwa [filter_stepsOf] at dropped

end FileSystem

end MplServer
