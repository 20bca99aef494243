import HttpRoutes.Proofs.Router.Registration
import HttpRoutes.Rule.Table

/-!
# Tables that are built from rules

The bindings of a rule set are registered like any other run of attempts, all
with one duplicate policy.  A binding that is left out has left the builder as
it was, so it does no harm to count it among the attempts.
-/

namespace HttpRoutes

def RouteSpec.attempt (settings : TableSettings) (spec : RouteSpec) :
    Builder.Attempt String :=
  ⟨settings.duplicates, spec.method, spec.template, spec.selector⟩

theorem registerSpecs_builder {settings : TableSettings}
    {specs : List RouteSpec} {progress final : TableProgress}
    (hresult : (registerSpecs settings progress specs).result = .ok final) :
    final.builder =
      (specs.map (RouteSpec.attempt settings)).foldl Builder.attempt
        progress.builder := by
  induction specs generalizing progress with
  | nil =>
      have hsame : progress = final := Except.ok.inj hresult
      rw [← hsame]
      rfl
  | cons spec specs ih =>
      rw [registerSpecs] at hresult
      obtain ⟨builder, registration, hregister⟩ :
          ∃ builder registration,
            progress.builder.register settings.duplicates spec.method
              spec.template spec.selector = (builder, registration) :=
        ⟨_, _, rfl⟩
      have hattempt :
          progress.builder.attempt (spec.attempt settings) = builder :=
        congrArg Prod.fst hregister
      rw [hregister] at hresult
      rw [List.map_cons, List.foldl_cons, hattempt]
      dsimp only at hresult
      split at hresult
      next => exact ih hresult
      next => simp at hresult
      next => exact ih hresult

theorem buildMatcher_eq_run {settings : TableSettings}
    {specs : List RouteSpec} {table : Matcher String}
    (hbuild : (buildMatcher settings specs).result = .ok table) :
    table = (Builder.run (specs.map (RouteSpec.attempt settings))).build := by
  rw [buildMatcher] at hbuild
  split at hbuild
  · simp at hbuild
  · next builder skipped hresult =>
    have hbuilder := registerSpecs_builder hresult
    have htable : builder.build = table := Except.ok.inj hbuild
    rw [← htable]
    exact congrArg Builder.build hbuilder

end HttpRoutes
