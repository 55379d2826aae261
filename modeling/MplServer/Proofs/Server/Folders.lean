import Mathlib.Data.List.Induction
import Mathlib.Data.List.Nodup
import MplServer.Proofs.Server.Session

/-!
# Workspace folders

An event drops the folders it removes and appends the folders it adds, unless they are there
already. So no folder is ever listed twice, and those that are not removed keep their order.
-/

namespace MplServer

/-- A folder is among others when one of them has its components. -/
def Path.IsAmong (folder : Path) (others : List Path) : Prop :=
  folder.components ∈ others.map Path.components

instance (folder : Path) (others : List Path) : Decidable (folder.IsAmong others) :=
  inferInstanceAs (Decidable (folder.components ∈ others.map Path.components))

/-- No two folders of a list have the same components. -/
def Distinct (folders : List Path) : Prop :=
  (folders.map Path.components).Nodup

instance (folders : List Path) : Decidable (Distinct folders) :=
  inferInstanceAs (Decidable (folders.map Path.components).Nodup)

/-- The folders that stay when some are removed. -/
def staying (folders removed : List Path) : List Path :=
  folders.filter fun folder => ¬ folder.IsAmong removed

/-- The added folders that are neither among those present nor earlier in the list of the added. -/
def newcomers (present added : List Path) : List Path :=
  (added.zipIdx.filter fun (folder, position) =>
    ¬ folder.IsAmong (present ++ added.take position)).map Prod.fst

/-- The folders that an event removes. -/
def removedBy : Event → List Path
  | .foldersChanged _ removed => removed.filterMap Uri.toPath?
  | _ => []

/-- The folders that some event of a session removes. -/
def removedIn (turns : List Turn) : List Path :=
  turns.flatMap fun turn => removedBy turn.event

section Lists

variable {folder : Path} {folders present added removed : List Path}

theorem any_sameAs_iff (folder : Path) (folders : List Path) :
    folders.any folder.sameAs = true ↔ folder.IsAmong folders := by
  simp only [Path.IsAmong, Path.sameAs, List.any_eq_true, decide_eq_true_eq, List.mem_map]
  constructor
  · rintro ⟨other, member, same⟩
    exact ⟨other, member, same.symm⟩
  · rintro ⟨other, member, same⟩
    exact ⟨other, member, same.symm⟩

theorem isAmong_append (folder : Path) (front back : List Path) :
    folder.IsAmong (front ++ back) ↔ folder.IsAmong front ∨ folder.IsAmong back := by
  simp [Path.IsAmong]

theorem isAmong_staying_iff :
    folder.IsAmong (staying folders removed) ↔
      folder.IsAmong folders ∧ ¬ folder.IsAmong removed := by
  constructor
  · intro stays
    obtain ⟨other, inStaying, same⟩ := List.mem_map.mp stays
    obtain ⟨member, kept⟩ := List.mem_filter.mp inStaying
    rw [decide_eq_true_eq, Path.IsAmong, same] at kept
    exact ⟨List.mem_map.mpr ⟨other, member, same⟩, kept⟩
  · rintro ⟨present, kept⟩
    obtain ⟨other, member, same⟩ := List.mem_map.mp present
    rw [Path.IsAmong, ← same] at kept
    exact List.mem_map.mpr
      ⟨other, List.mem_filter.mpr ⟨member, decide_eq_true_eq.mpr kept⟩, same⟩

theorem staying_append (front back removed : List Path) :
    staying (front ++ back) removed = staying front removed ++ staying back removed :=
  List.filter_append ..

theorem staying_staying (folders first second : List Path) :
    staying (staying folders first) second = staying folders (first ++ second) := by
  unfold staying
  rw [List.filter_filter]
  apply List.filter_congr
  intro folder _
  simp [isAmong_append, Bool.and_comm]

theorem Distinct.staying (distinct : Distinct folders) (removed : List Path) :
    Distinct (staying folders removed) :=
  List.Nodup.sublist (List.filter_sublist.map Path.components) distinct

/-- One more added folder is a newcomer unless it is present or was added before. -/
theorem newcomers_concat (present added : List Path) (folder : Path) :
    newcomers present (added ++ [folder]) =
      newcomers present added ++
        if folder.IsAmong (present ++ added) then [] else [folder] := by
  have earlier :
      (added.zipIdx.filter fun (other, position) =>
          ¬ other.IsAmong (present ++ (added ++ [folder]).take position)) =
        added.zipIdx.filter fun (other, position) =>
          ¬ other.IsAmong (present ++ added.take position) := by
    apply List.filter_congr
    rintro ⟨other, position⟩ member
    have within := List.snd_lt_of_mem_zipIdx member
    dsimp only at within ⊢
    rw [List.take_append_of_le_length (by omega)]
  unfold newcomers
  rw [List.zipIdx_append, List.filter_append, List.map_append, earlier, List.zipIdx_singleton]
  by_cases known : folder.IsAmong (present ++ added)
  · simp [known]
  · simp [known]

/-- Added folders that are no newcomers add nothing to those that are there. -/
theorem isAmong_newcomers_iff (folder : Path) (present added : List Path) :
    folder.IsAmong (present ++ newcomers present added) ↔
      folder.IsAmong (present ++ added) := by
  induction added using List.reverseRecOn with
  | nil => rfl
  | append_singleton earlier last inductionHypothesis =>
      rw [newcomers_concat, ← List.append_assoc, ← List.append_assoc, isAmong_append,
        inductionHypothesis, isAmong_append _ (present ++ earlier)]
      by_cases known : last.IsAmong (present ++ earlier)
      · rw [if_pos known]
        constructor
        · rintro (there | nowhere)
          · exact Or.inl there
          · cases nowhere
        · rintro (there | isLast)
          · exact Or.inl there
          · rw [Path.IsAmong, List.map_singleton, List.mem_singleton] at isLast
            left
            rwa [Path.IsAmong, isLast]
      · rw [if_neg known]

namespace Server

/-- Adding folders one by one appends the newcomers. -/
theorem updatedFolders_eq (folders added removed : List Path) :
    updatedFolders folders added removed =
      staying folders removed ++ newcomers (staying folders removed) added := by
  have stay :
      (folders.filter fun folder => !removed.any folder.sameAs) = staying folders removed := by
    apply List.filter_congr
    intro folder _
    rw [Bool.eq_iff_iff]
    simp [← any_sameAs_iff]
  rw [updatedFolders, stay]
  generalize staying folders removed = present
  induction added using List.reverseRecOn with
  | nil => simp [newcomers]
  | append_singleton earlier last inductionHypothesis =>
      rw [List.foldl_append, inductionHypothesis, List.foldl_cons, List.foldl_nil,
        newcomers_concat]
      by_cases known : last.IsAmong (present ++ earlier)
      · have there := (isAmong_newcomers_iff last present earlier).mpr known
        rw [if_pos ((any_sameAs_iff _ _).mpr there), if_pos known, List.append_nil]
      · have absent := mt (isAmong_newcomers_iff last present earlier).mp known
        rw [if_neg (mt (any_sameAs_iff _ _).mp absent), if_neg known, List.append_assoc]

end Server

/-- Newcomers are not among those present, and no two of them are the same. -/
theorem Distinct.append_newcomers (distinct : Distinct present) (added : List Path) :
    Distinct (present ++ newcomers present added) := by
  induction added using List.reverseRecOn with
  | nil => simpa [newcomers] using distinct
  | append_singleton earlier last inductionHypothesis =>
      rw [newcomers_concat, ← List.append_assoc]
      by_cases known : last.IsAmong (present ++ earlier)
      · rwa [if_pos known, List.append_nil]
      · have absent := mt (isAmong_newcomers_iff last present earlier).mp known
        rw [if_neg known, Distinct, List.map_append, List.map_singleton,
          ← List.concat_eq_append]
        exact List.Nodup.concat absent inductionHypothesis

end Lists

namespace Server

variable {server : Server}

/-! ## One event -/

/-- The folders after an event that gets through. -/
def foldersAfter (folders : List Path) : Event → List Path
  | .greeting greeting => greetedFolders greeting
  | .foldersChanged added removed =>
      updatedFolders folders (added.filterMap Uri.toPath?) (removed.filterMap Uri.toPath?)
  | _ => folders

theorem folders_receive (server : Server) (turn : Turn) :
    (server.receive turn).folders = foldersAfter server.folders turn.event := by
  obtain ⟨world, event⟩ := turn
  cases event <;> rfl

/-- An event greets the server. -/
def isGreeting : Event → Bool
  | .greeting _ => true
  | _ => false

theorem foldersAfter_of_removedBy
    {event : Event} (notGreeting : isGreeting event = false) (folders : List Path) :
    ∃ added,
      foldersAfter folders event =
        staying folders (removedBy event) ++
          newcomers (staying folders (removedBy event)) added := by
  have unchanged : folders = staying folders [] ++ newcomers (staying folders []) [] := by
    simp [staying, newcomers, Path.IsAmong]
  cases event with
  | greeting greeting => cases notGreeting
  | foldersChanged added removed => exact ⟨_, updatedFolders_eq ..⟩
  | _ => exact ⟨[], unchanged⟩

/-! ## Whole sessions -/

theorem phase_receive_ne_fresh (greeted : server.phase ≠ .fresh) (turn : Turn) :
    (server.receive turn).phase ≠ .fresh := by
  rw [phase_receive]
  cases turn.event with
  | greeting greeting => simp [phaseAfter]
  | shutdown => simp [phaseAfter]
  | _ => exact greeted

theorem phase_afterAll_ne_fresh (greeted : server.phase ≠ .fresh) (turns : List Turn) :
    (server.afterAll turns).phase ≠ .fresh := by
  induction turns generalizing server with
  | nil => exact greeted
  | cons turn later inductionHypothesis =>
      apply inductionHypothesis
      dsimp only
      rw [server_handle]
      split
      · exact phase_receive_ne_fresh greeted turn
      · exact greeted

/-- A server that is not fresh hears no greeting. -/
theorem isGreeting_of_heard
    {turns : List Turn} (greeted : server.phase ≠ .fresh) :
    ∀ turn ∈ server.heard turns, isGreeting turn.event = false := by
  induction turns generalizing server with
  | nil => simp [heard]
  | cons turn later inductionHypothesis =>
      rw [heard]
      by_cases audible : server.hears turn.event = true
      · rw [if_pos audible, List.forall_mem_cons]
        have notGreeting : isGreeting turn.event = false := by
          cases event : turn.event with
          | greeting greeting =>
              rw [event] at audible
              exact absurd (of_decide_eq_true audible) greeted
          | _ => rfl
        exact ⟨notGreeting, inductionHypothesis (phase_receive_ne_fresh greeted turn)⟩
      · rw [if_neg audible]
        exact inductionHypothesis greeted

theorem distinct_receiveAll
    {turns : List Turn}
    (noGreeting : ∀ turn ∈ turns, isGreeting turn.event = false)
    (distinct : Distinct server.folders) :
    Distinct (server.receiveAll turns).folders := by
  induction turns generalizing server with
  | nil => exact distinct
  | cons turn later inductionHypothesis =>
      rw [List.forall_mem_cons] at noGreeting
      apply inductionHypothesis noGreeting.2
      obtain ⟨added, whole⟩ := foldersAfter_of_removedBy noGreeting.1 server.folders
      rw [folders_receive, whole]
      exact (distinct.staying _).append_newcomers added

theorem distinct_afterAll
    (greeted : server.phase ≠ .fresh) (turns : List Turn)
    (distinct : Distinct server.folders) :
    Distinct (server.afterAll turns).folders := by
  rw [afterAll_eq_receiveAll_heard]
  exact distinct_receiveAll (isGreeting_of_heard greeted) distinct

/-- The folders that no event removes come first, in the order they had. -/
theorem exists_folders_receiveAll
    {turns : List Turn}
    (noGreeting : ∀ turn ∈ turns, isGreeting turn.event = false) :
    ∃ joined,
      (server.receiveAll turns).folders = staying server.folders (removedIn turns) ++ joined := by
  induction turns generalizing server with
  | nil => exact ⟨[], by simp [receiveAll, removedIn, staying, Path.IsAmong]⟩
  | cons turn later inductionHypothesis =>
      rw [List.forall_mem_cons] at noGreeting
      obtain ⟨joined, onward⟩ := @inductionHypothesis (server.receive turn) noGreeting.2
      obtain ⟨added, whole⟩ := foldersAfter_of_removedBy noGreeting.1 server.folders
      rw [folders_receive, whole, staying_append, staying_staying, List.append_assoc] at onward
      exact ⟨_, onward⟩

/-- What becomes of folders when some are added and some removed. Those that are not removed stay,
in their order, and behind them come the added ones that are new, in theirs. -/
structure FoldersChanged (before added removed after : List Path) : Prop where
  order : after = staying before removed ++ newcomers (staying before removed) added
  present :
    ∀ folder : Path,
      folder.IsAmong after ↔
        folder.IsAmong added ∨ folder.IsAmong before ∧ ¬ folder.IsAmong removed
  distinct : Distinct before → Distinct after

theorem foldersChanged_updatedFolders (before added removed : List Path) :
    FoldersChanged before added removed (updatedFolders before added removed) := by
  have order := updatedFolders_eq before added removed
  refine ⟨order, ?_, ?_⟩
  · intro folder
    rw [order, isAmong_newcomers_iff, isAmong_append, isAmong_staying_iff, or_comm]
  · intro distinct
    rw [order]
    exact (distinct.staying removed).append_newcomers added

def folderNamed (path : String) : Uri :=
  ⟨"file", some "", none, path, none, none⟩

/-- A folder is opened that is open in another spelling, with a new one named twice. Then the first
folder is removed and added at once. -/
def moving (world : World) : List Turn :=
  [⟨world, .foldersChanged [folderNamed "/b/", folderNamed "/c", folderNamed "/c/"] []⟩,
    ⟨world, .foldersChanged [folderNamed "/a"]
      [folderNamed "/a/", ⟨"urn", none, none, "b", none, none⟩]⟩]

end Server

end MplServer
