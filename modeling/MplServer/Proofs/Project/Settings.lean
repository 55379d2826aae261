import MplServer.Project.Invocation

/-!
# Layers of settings

A key is answered by the first layer with a value for it. Null is no value, and a layer that is no
object has none at all, so such layers make no difference wherever they stand. A value of the wrong
kind is not passed over: it leaves its key with the default.
-/

namespace MplServer

namespace Settings

/-- What a layer gives for a key. -/
def valueIn? (key : String) : Json → Option Json
  | .object members => (Json.binding? key members).filter fun value => !value.isNull
  | _ => none

/-- What the first layer with a value for a key gives for it. -/
def firstValue? (key : String) (layers : List Json) : Option Json :=
  layers.findSome? (valueIn? key)

/-- A layer that gives nothing for the two keys. -/
def IsNeutral (layer : Json) : Prop :=
  layer.isObject = false ∨
    ∀ key ∈ [compilerPathKey, includePathKey],
      layer.get? key = none ∨ layer.get? key = some .null

/-- The settings answer every key from the first layer with a value for it. Where that value is of
another kind than the setting, the setting has its default. -/
structure AnswersFrom (settings : Settings) (layers : List Json) : Prop where
  value : ∀ key, settings.get? key = firstValue? key layers
  compiler :
    ∀ path, firstValue? compilerPathKey layers = some (.string path) →
      settings.compilerPath = path
  defaultCompiler :
    (∀ path, firstValue? compilerPathKey layers ≠ some (.string path)) →
      settings.compilerPath = "mplc"
  includeList :
    ∀ items, firstValue? includePathKey layers = some (.array items) →
      settings.includePaths = items.filterMap Json.text?
  singleInclude :
    ∀ path, firstValue? includePathKey layers = some (.string path) →
      settings.includePaths = [path]
  noIncludes :
    (∀ items, firstValue? includePathKey layers ≠ some (.array items)) →
      (∀ path, firstValue? includePathKey layers ≠ some (.string path)) →
        settings.includePaths = []

/-! ## The first value -/

theorem firstValue?_cons (key : String) (layer : Json) (lower : List Json) :
    firstValue? key (layer :: lower) = (valueIn? key layer).or (firstValue? key lower) := by
  rw [firstValue?, List.findSome?_cons]
  cases valueIn? key layer <;> rfl

theorem firstValue?_append (key : String) (upper lower : List Json) :
    firstValue? key (upper ++ lower) = (firstValue? key upper).or (firstValue? key lower) :=
  List.findSome?_append

theorem get?_ofLayers (key : String) (layers : List Json) :
    (ofLayers layers).get? key = firstValue? key layers := by
  induction layers with
  | nil => rfl
  | cons layer lower inductionHypothesis =>
      rw [firstValue?_cons, ← inductionHypothesis]
      cases layer with
      | object members =>
          have kept :
              ofLayers (.object members :: lower) =
                ⟨.object members :: (ofLayers lower).layers⟩ := rfl
          have bound :
              valueIn? key (.object members) =
                ((Json.object members).get? key).filter fun value => !value.isNull := rfl
          rw [kept, get?, List.findSome?_cons, bound]
          cases ((Json.object members).get? key).filter fun value => !value.isNull <;> rfl
      | _ => rfl

theorem answersFrom_ofLayers (layers : List Json) : (ofLayers layers).AnswersFrom layers := by
  have value := fun key => get?_ofLayers key layers
  refine ⟨value, ?_, ?_, ?_, ?_, ?_⟩
  · intro path first
    rw [compilerPath, value, first]
  · intro other
    rw [compilerPath, value]
    split
    · rename_i path first
      exact absurd first (other path)
    · rfl
  · intro items first
    rw [includePaths, value, first]
  · intro path first
    rw [includePaths, value, first]
  · intro noList noString
    rw [includePaths, value]
    split
    · rename_i items first
      exact absurd first (noList items)
    · rename_i path first
      exact absurd first (noString path)
    · rfl

theorem AnswersFrom.congr
    {settings : Settings} {layers others : List Json}
    (answers : settings.AnswersFrom layers)
    (same : ∀ key, firstValue? key others = firstValue? key layers) :
    settings.AnswersFrom others := by
  obtain ⟨value, compiler, defaultCompiler, includeList, singleInclude, noIncludes⟩ := answers
  simp only [← same] at value compiler defaultCompiler includeList singleInclude noIncludes
  exact ⟨value, compiler, defaultCompiler, includeList, singleInclude, noIncludes⟩

/-! ## Neutral layers -/

theorem IsNeutral.valueIn?_eq_none
    {layer : Json} (neutral : IsNeutral layer) {key : String}
    (asked : key ∈ [compilerPathKey, includePathKey]) : valueIn? key layer = none := by
  rcases neutral with noObject | unset
  · cases layer with
    | object members => cases noObject
    | _ => rfl
  · cases layer with
    | object members =>
        have bound : valueIn? key (.object members) =
            ((Json.object members).get? key).filter fun value => !value.isNull := rfl
        rw [bound]
        rcases unset key asked with absent | null
        · rw [absent]
          rfl
        · rw [null]
          rfl
    | _ => rfl

theorem firstValue?_insert
    {layer : Json} (neutral : IsNeutral layer) {key : String}
    (asked : key ∈ [compilerPathKey, includePathKey]) (upper lower : List Json) :
    firstValue? key (upper ++ layer :: lower) = firstValue? key (upper ++ lower) := by
  have skipped : firstValue? key (layer :: lower) = firstValue? key lower := by
    rw [firstValue?_cons, neutral.valueIn?_eq_none asked, Option.none_or]
  rw [firstValue?_append, firstValue?_append, skipped]

end Settings

/-! ## Invocations -/

/-- Settings count only through what they give for the two keys. -/
theorem Configuration.invocation_eq_of_firstValue?_eq
    {layers others : List Json}
    (sameCompiler :
      Settings.firstValue? Settings.compilerPathKey layers =
        Settings.firstValue? Settings.compilerPathKey others)
    (sameIncludes :
      Settings.firstValue? Settings.includePathKey layers =
        Settings.firstValue? Settings.includePathKey others)
    (configuration : Configuration) (root : Path) :
    configuration.invocation root (.ofLayers layers) =
      configuration.invocation root (.ofLayers others) := by
  have compilerPath_eq :
      (Settings.ofLayers layers).compilerPath = (Settings.ofLayers others).compilerPath := by
    rw [Settings.compilerPath, Settings.compilerPath, Settings.get?_ofLayers,
      Settings.get?_ofLayers, sameCompiler]
  have includePaths_eq :
      (Settings.ofLayers layers).includePaths = (Settings.ofLayers others).includePaths := by
    rw [Settings.includePaths, Settings.includePaths, Settings.get?_ofLayers,
      Settings.get?_ofLayers, sameIncludes]
  rw [Configuration.invocation, Configuration.invocation, BuildPlan.of, BuildPlan.of,
    compilerPath_eq, includePaths_eq]

end MplServer
