import ContainerBuild.Proofs.Params.Reloading

namespace ContainerBuild
namespace BuildId

/-!
# Build IDs that parameters come with

The name of an image build is checked wherever it is set, and nothing else sets it.  So what the
rule of build IDs says of a text that was accepted it says of every name, whether the parameters
were loaded or made from a request.
-/

/-- A text is accepted exactly if its first characters, at most sixty-three, are in the language of
the regular expression that users are shown, which has the texts that are well-formed.  So checking
what was accepted changes nothing, and the name of an image build follows the rule however its
parameters come about. -/
theorem accepted_exactly_of_rule :
    pattern.toList = '^' :: rule.written ++ ['$'] ∧
      (∀ text : List Char, text ∈ rule.language ↔ WellFormed text) ∧
      (∀ text id : String, check text = .ok id ↔
        id.toList = text.toList.take (min 63 text.length) ∧ id.toList ∈ rule.language) ∧
      (∀ text id : String, check text = .ok id → check id = .ok id) ∧
      (∀ (payload : String) (params : ImageParams), Params.load payload = .ok (.image params) →
        ∀ name ∈ params.name, name.toList ∈ rule.language ∧ name.length ≤ 63) ∧
      ∀ (request : ImageRequest) (settings : Settings) (instant : Instant) (draws : List UInt32)
        (params : ImageParams), ImageParams.make request settings instant draws = .ok params →
        ∀ name ∈ params.name, name.toList ∈ rule.language ∧ name.length ≤ 63 := by
  refine ⟨pattern_eq, fun text => mem_rule_iff.trans wellFormed_iff.symm,
    fun text id => check_ok_iff, fun text id => check_of_check, ?loaded, ?made⟩
  case loaded =>
    intro payload params loaded name here
    have named : (Params.image params).Named := (Params.Obtained.loaded loaded).named
    exact follows_of_check (named name here)
  case made =>
    intro request settings instant draws params made name here
    exact follows_of_check (ImageParams.named_of_make made name here)

/-- A name that is longer than a build ID, with a letter outside ASCII behind the cut. -/
def longName : String := String.ofList (List.replicate 62 'a' ++ ['B', 'é', '-'])

/-- What is left of it. -/
def keptName : String := String.ofList (List.replicate 62 'a' ++ ['B'])

theorem accepted_exactly_of_rule_longName :
    check longName = .ok keptName ∧ check keptName = .ok keptName ∧
      Params.load (Json.object [("name", .string longName)]).compact =
        .ok (.image { ImageParams.default with name := some keptName }) ∧
      keptName.toList ∈ rule.language ∧ keptName.length ≤ 63 := by
  rcases accepted_exactly_of_rule with ⟨-, -, accepts, again, loads, -⟩
  have loaded : Params.load (Json.object [("name", .string longName)]).compact =
      .ok (.image { ImageParams.default with name := some keptName }) := by
    decide +kernel
  have follows := loads _ _ loaded keptName rfl
  have accepted := (accepts longName keptName).2 ⟨by decide +kernel, follows.1⟩
  exact ⟨accepted, again _ _ accepted, loaded, follows⟩

end BuildId
end ContainerBuild
