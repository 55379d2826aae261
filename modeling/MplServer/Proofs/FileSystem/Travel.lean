import MplServer.FileSystem.Basic
import MplServer.Proofs.Path.Components

/-!
# Following paths

The rules by which steps lead from place to place, and the places they lead to. Steps can be taken
one part after the other, and steps along entries that are no links need no links to be followed.
-/

namespace MplServer

namespace Node

/-- The rules of following steps. At most `links` links are followed. -/
inductive Leads (root : Node) : Nat → Place → List String → Place → Prop where
  | stop (links : Nat) (place : Place) : Leads root links place [] place
  | dot {links : Nat} {place final : Place} {rest : List String}
      {entries : List (String × Node)}
      (inDirectory : root.at? place = some (.directory entries))
      (onward : Leads root links place rest final) :
      Leads root links place ("." :: rest) final
  | dots {links : Nat} {place final : Place} {rest : List String}
      {entries : List (String × Node)}
      (inDirectory : root.at? place = some (.directory entries))
      (onward : Leads root links place.dropLast rest final) :
      Leads root links place (".." :: rest) final
  | entry {links : Nat} {place final : Place} {step : String} {rest : List String}
      {entries : List (String × Node)} {node : Node}
      (inDirectory : root.at? place = some (.directory entries))
      (notDot : step ≠ ".") (notDots : step ≠ "..")
      (found : entries.lookup step = some node)
      (noLink : ∀ target, node ≠ .symlink target)
      (onward : Leads root links (place ++ [step]) rest final) :
      Leads root links place (step :: rest) final
  | link {links : Nat} {place final : Place} {step target : String} {rest : List String}
      {entries : List (String × Node)}
      (inDirectory : root.at? place = some (.directory entries))
      (notDot : step ≠ ".") (notDots : step ≠ "..")
      (found : entries.lookup step = some (.symlink target))
      (onward :
        Leads root links (if (Path.mk target).isAbsolute then [] else place)
          (stepsOf target ++ rest) final) :
      Leads root (links + 1) place (step :: rest) final

variable {root : Node} {links : Nat} {place middle final : Place} {steps rest : List String}

theorem follow_of_leads
    (leads : Leads root links place steps final) :
    root.follow false false links place steps = .ok final := by
  induction leads with
  | stop links place => cases links <;> simp [follow, travel]
  | @dot links _ _ _ _ inDirectory _ inductionHypothesis =>
      cases links <;> simpa [follow, travel, inDirectory] using inductionHypothesis
  | @dots links _ _ _ _ inDirectory _ inductionHypothesis =>
      cases links <;> simpa [follow, travel, inDirectory] using inductionHypothesis
  | @entry links _ _ _ _ _ node inDirectory notDot notDots found noLink _
      inductionHypothesis =>
      cases node with
      | symlink target => exact absurd rfl (noLink target)
      | file contents executable =>
          cases links <;>
            simpa [follow, travel, inDirectory, notDot, notDots, found] using
              inductionHypothesis
      | directory inner =>
          cases links <;>
            simpa [follow, travel, inDirectory, notDot, notDots, found] using
              inductionHypothesis
  | link inDirectory notDot notDots found _ inductionHypothesis =>
      simpa [follow, travel, inDirectory, notDot, notDots, found] using
        inductionHypothesis

/-- What becomes of the next step in a directory, when all steps can be taken. -/
inductive Taken (root : Node) (keepLink allowFresh : Bool)
    (expand : Place → String → List String → Except FileError Place)
    (place : Place) (entries : List (String × Node)) (rest : List String) (final : Place) :
    String → Prop where
  | dot (onward : root.travel keepLink allowFresh expand place rest = .ok final) :
      Taken root keepLink allowFresh expand place entries rest final "."
  | dots (onward : root.travel keepLink allowFresh expand place.dropLast rest = .ok final) :
      Taken root keepLink allowFresh expand place entries rest final ".."
  | entry {step : String} {node : Node}
      (notDot : step ≠ ".") (notDots : step ≠ "..")
      (found : entries.lookup step = some node)
      (noLink : ∀ target, node ≠ .symlink target)
      (onward :
        root.travel keepLink allowFresh expand (place ++ [step]) rest = .ok final) :
      Taken root keepLink allowFresh expand place entries rest final step
  | link {step target : String}
      (notDot : step ≠ ".") (notDots : step ≠ "..")
      (found : entries.lookup step = some (.symlink target))
      (onward : expand place target rest = .ok final) :
      Taken root keepLink allowFresh expand place entries rest final step
  | kept {step target : String}
      (notDot : step ≠ ".") (notDots : step ≠ "..")
      (found : entries.lookup step = some (.symlink target))
      (keep : keepLink = true) (here : final = place ++ [step]) :
      Taken root keepLink allowFresh expand place entries rest final step
  | fresh {step : String}
      (notDot : step ≠ ".") (notDots : step ≠ "..")
      (allow : allowFresh = true) (here : final = place ++ [step]) :
      Taken root keepLink allowFresh expand place entries rest final step

theorem taken_of_travel_cons
    {keepLink allowFresh : Bool}
    {expand : Place → String → List String → Except FileError Place} {step : String}
    (travelled :
      root.travel keepLink allowFresh expand place (step :: rest) = .ok final) :
    ∃ entries, root.at? place = some (.directory entries) ∧
      Taken root keepLink allowFresh expand place entries rest final step := by
  rw [travel] at travelled
  cases inPlace : root.at? place with
  | none => simp [inPlace] at travelled
  | some node =>
      cases node with
      | file contents executable => simp [inPlace] at travelled
      | symlink target => simp [inPlace] at travelled
      | directory entries =>
          refine ⟨entries, rfl, ?_⟩
          simp only [inPlace] at travelled
          by_cases isDot : step = "."
          · rw [if_pos isDot] at travelled
            exact isDot ▸ .dot travelled
          rw [if_neg isDot] at travelled
          by_cases isDots : step = ".."
          · rw [if_pos isDots] at travelled
            exact isDots ▸ .dots travelled
          rw [if_neg isDots] at travelled
          cases found : entries.lookup step with
          | none =>
              simp only [found] at travelled
              split at travelled
              · cases travelled
              · split at travelled
                · next allowed =>
                  rw [Bool.and_eq_true] at allowed
                  exact .fresh isDot isDots allowed.1 (Except.ok.inj travelled).symm
                · cases travelled
          | some next =>
              cases next with
              | symlink target =>
                  simp only [found] at travelled
                  split at travelled
                  · next kept =>
                    rw [Bool.and_eq_true] at kept
                    exact .kept isDot isDots found kept.1
                      (Except.ok.inj travelled).symm
                  · exact .link isDot isDots found travelled
              | file contents executable =>
                  simp only [found] at travelled
                  exact .entry isDot isDots found (by simp) travelled
              | directory inner =>
                  simp only [found] at travelled
                  exact .entry isDot isDots found (by simp) travelled

/-- What taking steps does, when what links are expanded to follows the rules. -/
theorem leads_of_travel
    {expand : Place → String → List String → Except FileError Place}
    (expanded : ∀ place target rest, expand place target rest = .ok final →
      ∃ fewer, links = fewer + 1 ∧
        Leads root fewer (if (Path.mk target).isAbsolute then [] else place)
          (stepsOf target ++ rest) final)
    (travelled : root.travel false false expand place steps = .ok final) :
    Leads root links place steps final := by
  induction steps generalizing place with
  | nil =>
      cases travelled
      exact .stop links _
  | cons step rest inductionHypothesis =>
      obtain ⟨entries, inDirectory, taken⟩ := taken_of_travel_cons travelled
      cases taken with
      | dot onward => exact .dot inDirectory (inductionHypothesis onward)
      | dots onward => exact .dots inDirectory (inductionHypothesis onward)
      | entry notDot notDots found noLink onward =>
          exact .entry inDirectory notDot notDots found noLink
            (inductionHypothesis onward)
      | link notDot notDots found onward =>
          obtain ⟨fewer, rfl, follows⟩ := expanded _ _ _ onward
          exact .link inDirectory notDot notDots found follows
      | kept _ _ _ keep => cases keep
      | fresh _ _ allow => cases allow

theorem follow_eq_ok_iff :
    root.follow false false links place steps = .ok final ↔
      Leads root links place steps final := by
  refine ⟨fun followed => ?_, follow_of_leads⟩
  induction links generalizing place steps with
  | zero =>
      refine leads_of_travel (fun _ _ _ impossible => ?_) followed
      cases impossible
  | succ fewer inductionHypothesis =>
      refine leads_of_travel (fun _ _ _ expanded => ?_) followed
      exact ⟨fewer, rfl, inductionHypothesis expanded⟩

theorem Leads.of_dot
    (leads : Leads root links place ("." :: rest) final) :
    (∃ entries, root.at? place = some (.directory entries)) ∧
      Leads root links place rest final := by
  generalize whole_eq : "." :: rest = whole at leads
  cases leads with
  | stop => cases whole_eq
  | dot inDirectory onward =>
      obtain ⟨_, rfl⟩ := List.cons.inj whole_eq
      exact ⟨⟨_, inDirectory⟩, onward⟩
  | dots inDirectory onward =>
      exact absurd (List.cons.inj whole_eq).1 (by decide)
  | entry inDirectory notDot =>
      exact absurd (List.cons.inj whole_eq).1.symm notDot
  | link inDirectory notDot =>
      exact absurd (List.cons.inj whole_eq).1.symm notDot

theorem Leads.of_dots
    (leads : Leads root links place (".." :: rest) final) :
    (∃ entries, root.at? place = some (.directory entries)) ∧
      Leads root links place.dropLast rest final := by
  generalize whole_eq : ".." :: rest = whole at leads
  cases leads with
  | stop => cases whole_eq
  | dot inDirectory onward =>
      exact absurd (List.cons.inj whole_eq).1 (by decide)
  | dots inDirectory onward =>
      obtain ⟨_, rfl⟩ := List.cons.inj whole_eq
      exact ⟨⟨_, inDirectory⟩, onward⟩
  | entry inDirectory notDot notDots =>
      exact absurd (List.cons.inj whole_eq).1.symm notDots
  | link inDirectory notDot notDots =>
      exact absurd (List.cons.inj whole_eq).1.symm notDots

theorem Leads.eq_of_nil
    (leads : Leads root links place [] final) :
    final = place := by
  cases leads
  rfl

/-! ## Taking steps part by part -/

theorem Leads.append
    (first : Leads root links place steps middle)
    (second : ∀ fewer, fewer ≤ links → Leads root fewer middle rest final) :
    Leads root links place (steps ++ rest) final := by
  induction first with
  | stop links place => exact second links (Nat.le_refl links)
  | dot inDirectory _ inductionHypothesis =>
      exact .dot inDirectory (inductionHypothesis second)
  | dots inDirectory _ inductionHypothesis =>
      exact .dots inDirectory (inductionHypothesis second)
  | entry inDirectory notDot notDots found noLink _ inductionHypothesis =>
      exact .entry inDirectory notDot notDots found noLink (inductionHypothesis second)
  | link inDirectory notDot notDots found _ inductionHypothesis =>
      have onward := inductionHypothesis fun fewer bounded =>
        second fewer (Nat.le_succ_of_le bounded)
      rw [List.append_assoc] at onward
      exact .link inDirectory notDot notDots found onward

theorem Leads.split_nil
    (leads : Leads root links place rest final) :
    ∃ fewer middle,
      fewer ≤ links ∧ Leads root links place [] middle ∧
        Leads root fewer middle rest final :=
  ⟨links, place, Nat.le_refl links, .stop links place, leads⟩

theorem Leads.split
    {whole : List String}
    (leads : Leads root links place whole final)
    (parts : whole = steps ++ rest) :
    ∃ fewer middle,
      fewer ≤ links ∧ Leads root links place steps middle ∧
        Leads root fewer middle rest final := by
  induction leads generalizing steps with
  | stop links place =>
      obtain ⟨rfl, rfl⟩ := List.append_eq_nil_iff.mp parts.symm
      exact ⟨links, place, Nat.le_refl links, .stop links place, .stop links place⟩
  | dot inDirectory onward inductionHypothesis =>
      cases steps with
      | nil =>
          obtain rfl := parts
          exact (Leads.dot inDirectory onward).split_nil
      | cons step others =>
          obtain ⟨rfl, rfl⟩ := List.cons.inj parts
          obtain ⟨fewer, middle, bounded, before, behind⟩ := inductionHypothesis rfl
          exact ⟨fewer, middle, bounded, .dot inDirectory before, behind⟩
  | dots inDirectory onward inductionHypothesis =>
      cases steps with
      | nil =>
          obtain rfl := parts
          exact (Leads.dots inDirectory onward).split_nil
      | cons step others =>
          obtain ⟨rfl, rfl⟩ := List.cons.inj parts
          obtain ⟨fewer, middle, bounded, before, behind⟩ := inductionHypothesis rfl
          exact ⟨fewer, middle, bounded, .dots inDirectory before, behind⟩
  | entry inDirectory notDot notDots found noLink onward inductionHypothesis =>
      cases steps with
      | nil =>
          obtain rfl := parts
          exact (Leads.entry inDirectory notDot notDots found noLink onward).split_nil
      | cons step others =>
          obtain ⟨rfl, rfl⟩ := List.cons.inj parts
          obtain ⟨fewer, middle, bounded, before, behind⟩ := inductionHypothesis rfl
          exact ⟨fewer, middle, bounded,
            .entry inDirectory notDot notDots found noLink before, behind⟩
  | link inDirectory notDot notDots found onward inductionHypothesis =>
      cases steps with
      | nil =>
          obtain rfl := parts
          exact (Leads.link inDirectory notDot notDots found onward).split_nil
      | cons step others =>
          obtain ⟨rfl, rfl⟩ := List.cons.inj parts
          obtain ⟨fewer, middle, bounded, before, behind⟩ :=
            inductionHypothesis (List.append_assoc ..).symm
          exact ⟨fewer, middle, Nat.le_succ_of_le bounded,
            .link inDirectory notDot notDots found before, behind⟩

end Node

end MplServer
