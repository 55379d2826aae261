import MplServer.Proofs.Path.Ancestors
import MplServer.Proofs.Path.Suffix
import MplServer.Proofs.Uri.Percent
import MplServer.Uri.File

/-!
# URIs of files

A URI names an absolute path. One that is written in plain characters names the path as it is
written, with all its slashes. The URI of a path tells its components and nothing else.
-/

namespace MplServer

namespace Text

/-! ## Plain characters -/

/-- A character of one byte that stands for itself within a segment of a URI. -/
def isUnencoded (c : Char) : Bool :=
  c.toNat < 128 && c ≠ '/' && c ≠ '%'

theorem isUnencoded_iff (c : Char) :
    isUnencoded c = true ↔ c.toNat < 128 ∧ c ≠ '/' ∧ c ≠ '%' := by
  simp [isUnencoded, and_assoc]

end Text

namespace Uri

/-- The bytes of decoded segments, each behind a slash. -/
def segmentBytes (path : List Char) : List UInt8 :=
  (path.splitOn '/').flatMap fun segment =>
    47 :: decodeBytes (Text.encode (String.ofList segment))

theorem decoded_eq (path : List Char) :
    toPath?.decoded path =
      if isDrive ((Text.decodeLossy (segmentBytes path)).toList.drop
            ((Text.decodeLossy (segmentBytes path)).toList.length - 2)) &&
          2 < (segmentBytes path).length then
        ⟨Text.decodeLossy (segmentBytes path) ++ "/"⟩
      else ⟨Text.decodeLossy (segmentBytes path)⟩ := rfl

theorem decodeLossy_segmentBytes (path : List Char) :
    ∃ rest, (Text.decodeLossy (segmentBytes path)).toList = '/' :: rest := by
  have someSegment := List.splitOn_ne_nil '/' path
  obtain ⟨first, others, segments⟩ := List.exists_cons_of_ne_nil someSegment
  rw [segmentBytes, segments, List.flatMap_cons, List.cons_append, Text.decodeLossy,
    String.toList_ofList]
  exact ⟨_, rfl⟩

theorem isAbsolute_of_toPath?
    {uri : Uri} {path : Path} (names : uri.toPath? = some path) : path.isAbsolute = true := by
  have decodedAbsolute : ∀ rest, (toPath?.decoded rest).isAbsolute = true := by
    intro rest
    obtain ⟨behind, begun⟩ := decodeLossy_segmentBytes rest
    rw [decoded_eq]
    split
    · simp [Path.isAbsolute, begun]
    · simp [Path.isAbsolute, begun]
  unfold toPath? at names
  split at names
  · rw [← Option.some.inj names]
    exact decodedAbsolute _
  · rw [← Option.some.inj names]
    exact decodedAbsolute _
  · cases names

/-! ## URIs of paths -/

/-- A URI is written from the components of a path. -/
theorem ofPath?_eq_of_components_eq
    {left right : Path} (same : left.components = right.components) :
    ofPath? left = ofPath? right := by
  rw [ofPath?, ofPath?, Path.isAbsolute_eq_of_components_eq same, same]

theorem isAbsolute_of_ofPath?
    {path : Path} {uri : Uri} (written : ofPath? path = some uri) : path.isAbsolute = true := by
  unfold ofPath? at written
  split at written
  · assumption
  · cases written

theorem isSome_ofPath? {path : Path} (absolute : path.isAbsolute = true) :
    (ofPath? path).isSome = true := by
  rw [ofPath?, if_pos absolute]
  rfl

theorem path_of_ofPath?
    {path : Path} {uri : Uri} (written : ofPath? path = some uri) :
    uri.path =
      "/" ++ Text.joinWith '/' (path.steps.map fun step => encode inSegment step.text) := by
  have absolute := isAbsolute_of_ofPath? written
  rw [ofPath?, if_pos absolute, Option.some.injEq,
    Path.components_of_isAbsolute absolute] at written
  rw [← written]
  rfl

/-- Segments that are not empty and hold no slash are the pieces of what they are joined to. -/
theorem filter_splitAt_joinWith
    {segments : List String}
    (each : ∀ segment ∈ segments, '/' ∉ segment.toList ∧ segment ≠ "") :
    (Text.splitAt '/' (Text.joinWith '/' segments)).filter (· ≠ "") = segments := by
  by_cases none : segments = []
  · subst none
    simp
  · rw [Text.splitAt_joinWith none fun segment member => (each segment member).1,
      List.filter_eq_self]
    intro segment member
    simpa using (each segment member).2

/-- The components of a path can be read off its URI. -/
theorem components_eq_of_ofPath?_eq
    {left right : Path} {uri : Uri}
    (leftWritten : ofPath? left = some uri) (rightWritten : ofPath? right = some uri) :
    left.components = right.components := by
  have each :
      ∀ path : Path, ∀ segment ∈ path.steps.map (fun step => encode inSegment step.text),
        '/' ∉ segment.toList ∧ segment ≠ "" := by
    intro path segment member
    obtain ⟨step, inSteps, rfl⟩ := List.mem_map.mp member
    exact ⟨slash_not_mem_encode step.text,
      encode_ne_empty (Path.isStep_of_mem_steps inSteps).text_ne_empty⟩
  have samePath := path_of_ofPath? leftWritten
  rw [path_of_ofPath? rightWritten] at samePath
  have sameSegments :
      left.steps.map (fun step => encode inSegment step.text) =
        right.steps.map fun step => encode inSegment step.text := by
    rw [← filter_splitAt_joinWith (each left), ← filter_splitAt_joinWith (each right),
      (String.append_right_inj "/").mp samePath]
  have sameTexts : left.steps.map Path.Component.text = right.steps.map Path.Component.text := by
    have injective : Function.Injective (encode inSegment) :=
      fun _ _ same => encode_inSegment_injective same
    apply List.map_injective_iff.mpr injective
    rw [List.map_map, List.map_map]
    exact sameSegments
  have sameSteps : left.steps = right.steps :=
    Path.eq_of_map_text_eq (fun _ member => .step (Path.isStep_of_mem_steps member))
      (fun _ member => .step (Path.isStep_of_mem_steps member)) sameTexts
  rw [Path.components_of_isAbsolute (isAbsolute_of_ofPath? leftWritten),
    Path.components_of_isAbsolute (isAbsolute_of_ofPath? rightWritten), sameSteps]

/-! ## Plain URIs -/

/-- A URI of a file, written as it stands. -/
def ofText (path : String) : Uri where
  scheme := "file"
  authority := some ""
  host := none
  path
  query := none
  fragment := none

theorem map_segment_of_plain
    {piece : String} (allPlain : piece.toList.all Text.isUnencoded = true) :
    (∀ byte ∈ decodeBytes (Text.encode piece), byte < 0x80) ∧
      (decodeBytes (Text.encode piece)).map (fun byte => Char.ofNat byte.toNat) =
        piece.toList := by
  have plain :
      ∀ c ∈ piece.toList, c.toNat < 128 ∧ c ≠ '/' ∧ c ≠ '%' :=
    fun c member => (Text.isUnencoded_iff c).mp (List.all_eq_true.mp allPlain c member)
  have bytes := Text.encode_of_small fun c member => (plain c member).1
  have unchanged : decodeBytes (Text.encode piece) = Text.encode piece := by
    apply decodeBytes_of_plain
    intro byte member
    rw [bytes] at member
    obtain ⟨c, inPiece, rfl⟩ := List.mem_map.mp member
    intro percent
    have number := Text.toNat_toUInt8_of_small (plain c inPiece).1
    rw [percent] at number
    exact (plain c inPiece).2.2 (Char.toNat_inj.mp number.symm)
  rw [unchanged, bytes]
  constructor
  · intro byte member
    obtain ⟨c, inPiece, rfl⟩ := List.mem_map.mp member
    rw [UInt8.lt_iff_toNat_lt, Text.toNat_toUInt8_of_small (plain c inPiece).1]
    exact (plain c inPiece).1
  · rw [List.map_map]
    have same : ∀ c ∈ piece.toList,
        ((fun byte : UInt8 => Char.ofNat byte.toNat) ∘ fun c : Char => c.toNat.toUInt8) c =
          id c := by
      intro c inPiece
      simp [Text.toNat_toUInt8_of_small (plain c inPiece).1]
    rw [List.map_congr_left same, List.map_id]

/-- A URI of plain characters names the path it spells. -/
theorem toPath?_ofText
    {pieces : List String}
    (nonempty : pieces ≠ [])
    (plain : ∀ piece ∈ pieces, piece.toList.all Text.isUnencoded = true)
    (noDrive :
      isDrive (("/" ++ Text.joinWith '/' pieces).toList.drop
        (("/" ++ Text.joinWith '/' pieces).toList.length - 2)) = false) :
    (ofText ("/" ++ Text.joinWith '/' pieces)).toPath? =
      some ⟨"/" ++ Text.joinWith '/' pieces⟩ := by
  have segments :
      (Text.joinWith '/' pieces).toList.splitOn '/' = pieces.map String.toList := by
    rw [Text.toList_joinWith]
    apply List.splitOn_intercalate
    · intro characters member
      obtain ⟨piece, inPieces, rfl⟩ := List.mem_map.mp member
      intro slash
      exact absurd (List.all_eq_true.mp (plain piece inPieces) '/' slash) (by decide)
    · simpa using nonempty
  have bytes :
      segmentBytes (Text.joinWith '/' pieces).toList =
        pieces.flatMap fun piece => 47 :: decodeBytes (Text.encode piece) := by
    rw [segmentBytes, segments, List.flatMap_map]
    simp
  have characters :
      Text.decodeLossy (segmentBytes (Text.joinWith '/' pieces).toList) =
        "/" ++ Text.joinWith '/' pieces := by
    apply String.toList_injective
    rw [Text.slash_append_joinWith nonempty, bytes, Text.decodeLossy, String.toList_ofList,
      Text.decodeFrom_of_plain, List.map_flatMap]
    · apply List.flatMap_congr
      intro piece inPieces
      rw [List.map_cons, (map_segment_of_plain (plain piece inPieces)).2]
      rfl
    · intro byte member
      obtain ⟨piece, inPieces, inPiece⟩ := List.mem_flatMap.mp member
      rcases List.mem_cons.mp inPiece with rfl | behind
      · decide
      · exact (map_segment_of_plain (plain piece inPieces)).1 byte behind
  have written :
      (ofText ("/" ++ Text.joinWith '/' pieces)).path.toList =
        '/' :: (Text.joinWith '/' pieces).toList := by
    simp [ofText]
  have named :
      (ofText ("/" ++ Text.joinWith '/' pieces)).toPath? =
        some (toPath?.decoded (Text.joinWith '/' pieces).toList) := by
    unfold toPath?
    rw [written]
    rfl
  rw [named, decoded_eq, characters, noDrive]
  rfl

end Uri

end MplServer
