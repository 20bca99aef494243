import HttpRoutes.Proofs.Rule.Table

/-!
# Skipping and aborting

What a registration comes to depends on all that were made before it.  A binding
that fails leaves the builder as it was, though, and so leaving it out changes
nothing for the bindings behind it.  A table that skips failures is therefore
the one that the other bindings alone give, and a build that aborts goes the same
way up to the first failure.

The duplicate policy decides whether a conflict is a failure, but not what
becomes of the builder.
-/

namespace HttpRoutes

/-- A binding with what its registration came to. -/
structure SpecRegistration where
  spec : RouteSpec
  registration : Registration

namespace SpecRegistration

/-- The binding and the cause, if its registration failed. -/
def failure? (entry : SpecRegistration) : Option (RouteSpec × RegisterError) :=
  entry.registration.error?.map fun cause => (entry.spec, cause)

def isAccepted (entry : SpecRegistration) : Bool :=
  entry.failure?.isNone

def isDropped (entry : SpecRegistration) : Bool :=
  match entry.registration with
  | .dropped .. => true
  | _ => false

/-- What is reported of a binding where failures are skipped. -/
def report (entry : SpecRegistration) : List LogEvent :=
  match entry.registration.error? with
  | none => entry.registration.events
  | some cause => [entry.spec.skippedEvent cause]

end SpecRegistration

namespace RouteSpec

def registration (duplicates : DuplicatePolicy) (builder : Builder String)
    (spec : RouteSpec) : SpecRegistration :=
  ⟨spec, (builder.register duplicates spec.method spec.template spec.selector).2⟩

def builderAfter (duplicates : DuplicatePolicy) (builder : Builder String)
    (spec : RouteSpec) : Builder String :=
  (builder.register duplicates spec.method spec.template spec.selector).1

end RouteSpec

/-- What bindings come to that are registered one after the other. -/
def registrations (duplicates : DuplicatePolicy) (builder : Builder String) :
    List RouteSpec → List SpecRegistration
  | [] => []
  | spec :: specs =>
    spec.registration duplicates builder ::
      registrations duplicates (spec.builderAfter duplicates builder) specs

def builderAfter (duplicates : DuplicatePolicy) (builder : Builder String) :
    List RouteSpec → Builder String
  | [] => builder
  | spec :: specs =>
    builderAfter duplicates (spec.builderAfter duplicates builder) specs

def failures (entries : List SpecRegistration) :
    List (RouteSpec × RegisterError) :=
  entries.filterMap SpecRegistration.failure?

/-- The bindings whose registration did not fail. -/
def acceptedSpecs (entries : List SpecRegistration) : List RouteSpec :=
  (entries.filter SpecRegistration.isAccepted).map SpecRegistration.spec

def droppedSpecs (entries : List SpecRegistration) : List RouteSpec :=
  (entries.filter SpecRegistration.isDropped).map SpecRegistration.spec

variable {duplicates : DuplicatePolicy} {builder : Builder String}

/-! ## One registration -/

/-- A registration fails, is dropped or adds a route.  Only then does the builder
change. -/
theorem RouteSpec.registration_cases (duplicates : DuplicatePolicy)
    (builder : Builder String) (spec : RouteSpec) :
    (∃ cause, (spec.registration duplicates builder).failure? =
        some (spec, cause) ∧
      (spec.registration duplicates builder).isDropped = false ∧
      spec.builderAfter duplicates builder = builder) ∨
    ((spec.registration duplicates builder).failure? = none ∧
      (spec.registration duplicates builder).isDropped = true ∧
      spec.builderAfter duplicates builder = builder) ∨
    ((spec.registration duplicates builder).failure? = none ∧
      (spec.registration duplicates builder).isDropped = false ∧
      (spec.builderAfter duplicates builder).size = builder.size + 1) := by
  unfold registration RouteSpec.builderAfter
  rcases Builder.register_cases duplicates spec.method spec.template
    spec.selector builder with ⟨_, heq⟩ | ⟨_, error, _, heq⟩ |
      ⟨_, parsed, _, ⟨_, heq⟩ | ⟨existing, _, heq⟩⟩
  · rw [heq]
    exact .inl ⟨_, rfl, rfl, rfl⟩
  · rw [heq]
    exact .inl ⟨_, rfl, rfl, rfl⟩
  · rw [heq]
    exact .inr (.inr ⟨rfl, rfl, List.length_append⟩)
  · rw [heq]
    cases duplicates with
    | reject => exact .inl ⟨_, rfl, rfl, rfl⟩
    | keepFirst => exact .inr (.inl ⟨rfl, rfl, rfl⟩)

theorem RouteSpec.builderAfter_of_failure {spec : RouteSpec}
    {failure : RouteSpec × RegisterError}
    (hfailure : (spec.registration duplicates builder).failure? = some failure) :
    spec.builderAfter duplicates builder = builder := by
  rcases spec.registration_cases duplicates builder with
    ⟨_, _, _, hsame⟩ | ⟨hnone, _⟩ | ⟨hnone, _⟩
  · exact hsame
  · rw [hnone] at hfailure
    contradiction
  · rw [hnone] at hfailure
    contradiction

/-! ## Leaving out what fails -/

/-- The duplicate policy does not matter for the builder. -/
theorem builderAfter_eq (duplicates other : DuplicatePolicy)
    (builder : Builder String) (specs : List RouteSpec) :
    builderAfter duplicates builder specs = builderAfter other builder specs := by
  induction specs generalizing builder with
  | nil => rfl
  | cons spec specs ih =>
      have hsame : spec.builderAfter duplicates builder =
          spec.builderAfter other builder :=
        builder.fst_register_eq duplicates other _ _ _
      rw [builderAfter, builderAfter, hsame, ih]

theorem failures_registrations_of_none {spec : RouteSpec}
    (hnone : (spec.registration duplicates builder).failure? = none)
    (specs : List RouteSpec) :
    failures (registrations duplicates builder (spec :: specs)) =
      failures (registrations duplicates
        (spec.builderAfter duplicates builder) specs) :=
  List.filterMap_cons_none hnone

theorem failures_registrations_of_some {spec : RouteSpec}
    {failure : RouteSpec × RegisterError}
    (hfailure : (spec.registration duplicates builder).failure? = some failure)
    (specs : List RouteSpec) :
    failures (registrations duplicates builder (spec :: specs)) =
      failure :: failures (registrations duplicates builder specs) := by
  rw [registrations, failures, List.filterMap_cons_some hfailure,
    RouteSpec.builderAfter_of_failure hfailure]
  rfl

theorem acceptedSpecs_registrations_of_none {spec : RouteSpec}
    (hnone : (spec.registration duplicates builder).failure? = none)
    (specs : List RouteSpec) :
    acceptedSpecs (registrations duplicates builder (spec :: specs)) =
      spec :: acceptedSpecs (registrations duplicates
        (spec.builderAfter duplicates builder) specs) := by
  have hkept : (spec.registration duplicates builder).isAccepted = true :=
    Option.isNone_iff_eq_none.mpr hnone
  rw [registrations, acceptedSpecs, List.filter_cons_of_pos hkept]
  rfl

theorem acceptedSpecs_registrations_of_some {spec : RouteSpec}
    {failure : RouteSpec × RegisterError}
    (hfailure : (spec.registration duplicates builder).failure? = some failure)
    (specs : List RouteSpec) :
    acceptedSpecs (registrations duplicates builder (spec :: specs)) =
      acceptedSpecs (registrations duplicates builder specs) := by
  have hleft : ¬ (spec.registration duplicates builder).isAccepted = true := by
    simp [SpecRegistration.isAccepted, hfailure]
  rw [registrations, acceptedSpecs, List.filter_cons_of_neg hleft,
    RouteSpec.builderAfter_of_failure hfailure]
  rfl

/-- Without the bindings that fail, the builder comes out the same. -/
theorem builderAfter_acceptedSpecs (duplicates : DuplicatePolicy)
    (builder : Builder String) (specs : List RouteSpec) :
    builderAfter duplicates builder
        (acceptedSpecs (registrations duplicates builder specs)) =
      builderAfter duplicates builder specs := by
  -- Both runs are followed binding by binding.  A failure stands in only one of
  -- them, where it leaves the builder as it is.
  induction specs generalizing builder with
  | nil => rfl
  | cons spec specs ih =>
      cases hfailure : (spec.registration duplicates builder).failure? with
      | none =>
          rw [acceptedSpecs_registrations_of_none hfailure, builderAfter,
            builderAfter, ih]
      | some failure =>
          rw [acceptedSpecs_registrations_of_some hfailure, builderAfter,
            RouteSpec.builderAfter_of_failure hfailure, ih]

/-- Without the bindings that fail, no other one fails. -/
theorem failures_registrations_acceptedSpecs (duplicates : DuplicatePolicy)
    (builder : Builder String) (specs : List RouteSpec) :
    failures (registrations duplicates builder
      (acceptedSpecs (registrations duplicates builder specs))) = [] := by
  induction specs generalizing builder with
  | nil => rfl
  | cons spec specs ih =>
      cases hfailure : (spec.registration duplicates builder).failure? with
      | none =>
          rw [acceptedSpecs_registrations_of_none hfailure,
            failures_registrations_of_none hfailure, ih]
      | some failure =>
          rw [acceptedSpecs_registrations_of_some hfailure, ih]

/-- Every binding fails, is dropped or has added a route. -/
theorem length_failures_add_size (duplicates : DuplicatePolicy)
    (builder : Builder String) (specs : List RouteSpec) :
    (failures (registrations duplicates builder specs)).length +
        (builderAfter duplicates builder specs).size +
        (droppedSpecs (registrations duplicates builder specs)).length =
      builder.size + specs.length := by
  induction specs generalizing builder with
  | nil => simp [registrations, failures, droppedSpecs, builderAfter]
  | cons spec specs ih =>
      have hrest := ih (spec.builderAfter duplicates builder)
      have hdrops : (droppedSpecs (registrations duplicates builder
          (spec :: specs))).length =
            (droppedSpecs (registrations duplicates
              (spec.builderAfter duplicates builder) specs)).length +
            if (spec.registration duplicates builder).isDropped then 1 else 0 := by
        rw [registrations, droppedSpecs, List.filter_cons]
        split <;> simp [droppedSpecs]
      rw [hdrops, builderAfter, List.length_cons]
      rcases spec.registration_cases duplicates builder with
        ⟨cause, hfailure, hkept, hsame⟩ | ⟨hnone, hdropped, hsame⟩ |
          ⟨hnone, hkept, hsize⟩
      · rw [failures_registrations_of_some hfailure, hkept]
        rw [hsame] at hrest ⊢
        simp only [List.length_cons, Bool.false_eq_true, if_false]
        omega
      · rw [failures_registrations_of_none hnone, hdropped, if_pos rfl]
        rw [hsame] at hrest ⊢
        omega
      · rw [failures_registrations_of_none hnone, hkept]
        simp only [Bool.false_eq_true, if_false]
        omega

/-! ## Registering a list of bindings -/

section Register

variable {settings : TableSettings} {progress : TableProgress} {spec : RouteSpec}

theorem registerSpecs_cons_of_none
    (hnone : (spec.registration settings.duplicates
      progress.builder).failure? = none) (specs : List RouteSpec) :
    registerSpecs settings progress (spec :: specs) =
      (registerSpecs settings ⟨spec.builderAfter settings.duplicates
        progress.builder, progress.skipped⟩ specs).after
          (spec.registration settings.duplicates progress.builder).report := by
  have herror : (progress.builder.register settings.duplicates spec.method
      spec.template spec.selector).2.error? = none :=
    Option.map_eq_none_iff.mp hnone
  simp only [registerSpecs, SpecRegistration.report, RouteSpec.registration,
    RouteSpec.builderAfter, herror]

theorem registerSpecs_cons_of_some {failed : RouteSpec} {cause : RegisterError}
    (hsome : (spec.registration settings.duplicates
      progress.builder).failure? = some (failed, cause)) (specs : List RouteSpec) :
    registerSpecs settings progress (spec :: specs) =
      match settings.invalid with
      | .abort => ⟨[], .error (.unregistered failed cause)⟩
      | .skip =>
        (registerSpecs settings ⟨progress.builder, progress.skipped + 1⟩
          specs).after
            (spec.registration settings.duplicates progress.builder).report := by
  have hsame : (progress.builder.register settings.duplicates spec.method
      spec.template spec.selector).1 = progress.builder :=
    RouteSpec.builderAfter_of_failure hsome
  obtain ⟨other, herror, hfailure⟩ := Option.map_eq_some_iff.mp hsome
  obtain ⟨hspec, hcause⟩ := Prod.mk.inj hfailure
  change (progress.builder.register settings.duplicates spec.method
    spec.template spec.selector).2.error? = some other at herror
  change spec = failed at hspec
  rw [← hspec, ← hcause]
  cases hinvalid : settings.invalid with
  | abort => simp only [registerSpecs, herror, hinvalid]
  | skip =>
      simp only [registerSpecs, SpecRegistration.report, RouteSpec.registration,
        herror, hinvalid, hsame]

/-- Where failures are skipped, every binding is registered or counted. -/
theorem registerSpecs_skip (hskip : settings.invalid = .skip)
    (progress : TableProgress) (specs : List RouteSpec) :
    registerSpecs settings progress specs =
      ⟨(registrations settings.duplicates progress.builder specs).flatMap
          SpecRegistration.report,
        .ok ⟨builderAfter settings.duplicates progress.builder specs,
          progress.skipped + (failures (registrations settings.duplicates
            progress.builder specs)).length⟩⟩ := by
  induction specs generalizing progress with
  | nil => rfl
  | cons spec specs ih =>
      cases hfailure : (spec.registration settings.duplicates
          progress.builder).failure? with
      | none =>
          rw [registerSpecs_cons_of_none hfailure, ih,
            failures_registrations_of_none hfailure]
          rfl
      | some failure =>
          obtain ⟨failed, cause⟩ := failure
          rw [registerSpecs_cons_of_some hfailure, hskip]
          dsimp only
          rw [ih, failures_registrations_of_some hfailure, registrations,
            builderAfter, RouteSpec.builderAfter_of_failure hfailure,
            List.length_cons, Nat.add_right_comm]
          rfl

/-- Where nothing fails, it does not matter what becomes of failures. -/
theorem registerSpecs_of_failures_eq_nil {other : TableSettings}
    (hsame : settings.duplicates = other.duplicates) (progress : TableProgress)
    {specs : List RouteSpec}
    (hnone : failures (registrations settings.duplicates progress.builder
      specs) = []) :
    registerSpecs settings progress specs =
      registerSpecs other progress specs := by
  induction specs generalizing progress with
  | nil => rfl
  | cons spec specs ih =>
      cases hfailure : (spec.registration settings.duplicates
          progress.builder).failure? with
      | none =>
          rw [failures_registrations_of_none hfailure] at hnone
          rw [registerSpecs_cons_of_none hfailure, ih _ hnone]
          rw [hsame] at hfailure ⊢
          rw [registerSpecs_cons_of_none hfailure]
      | some failure =>
          rw [failures_registrations_of_some hfailure] at hnone
          contradiction

/-- A build that aborts does so at the first failure. -/
theorem result_registerSpecs_abort (habort : settings.invalid = .abort)
    (progress : TableProgress) {specs : List RouteSpec}
    {later : List (RouteSpec × RegisterError)} {cause : RegisterError}
    (hfirst : failures (registrations settings.duplicates progress.builder
      specs) = (spec, cause) :: later) :
    (registerSpecs settings progress specs).result =
      .error (.unregistered spec cause) := by
  induction specs generalizing progress with
  | nil => contradiction
  | cons other specs ih =>
      cases hfailure : (other.registration settings.duplicates
          progress.builder).failure? with
      | none =>
          rw [failures_registrations_of_none hfailure] at hfirst
          rw [registerSpecs_cons_of_none hfailure]
          exact ih _ hfirst
      | some failure =>
          rw [failures_registrations_of_some hfailure] at hfirst
          rw [(List.cons.inj hfirst).1] at hfailure
          rw [registerSpecs_cons_of_some hfailure, habort]

end Register

/-! ## Building a table -/

theorem buildMatcher_skip (settings : TableSettings)
    (hskip : settings.invalid = .skip) (specs : List RouteSpec) :
    let entries := registrations settings.duplicates .empty specs
    let table := (builderAfter settings.duplicates .empty specs).build
    buildMatcher settings specs =
      ⟨entries.flatMap SpecRegistration.report ++
        [.tableRegistered table.size (failures entries).length, table.builtEvent],
        .ok table⟩ := by
  intro entries table
  rw [buildMatcher, registerSpecs_skip hskip, Nat.zero_add]
  rfl

theorem buildMatcher_of_failures_eq_nil {settings other : TableSettings}
    (hsame : settings.duplicates = other.duplicates) {specs : List RouteSpec}
    (hnone : failures (registrations settings.duplicates .empty specs) = []) :
    buildMatcher settings specs = buildMatcher other specs := by
  rw [buildMatcher, buildMatcher, registerSpecs_of_failures_eq_nil hsame _ hnone]

theorem result_buildMatcher_abort {settings : TableSettings}
    (habort : settings.invalid = .abort) {specs : List RouteSpec}
    {spec : RouteSpec} {cause : RegisterError}
    {later : List (RouteSpec × RegisterError)}
    (hfirst : failures (registrations settings.duplicates .empty specs) =
      (spec, cause) :: later) :
    (buildMatcher settings specs).result = .error (.unregistered spec cause) := by
  have hresult := result_registerSpecs_abort habort ⟨.empty, 0⟩ hfirst
  rw [buildMatcher, hresult]

/-- A build that skips failures always gives a table, the same for both duplicate
policies and the same as the bindings that do not fail give alone.  Every binding
is skipped, dropped or in the table.  A build that aborts gives this table if
nothing fails and else the first failure. -/
theorem buildMatcher_skip_abort (settings : TableSettings)
    (specs : List RouteSpec) :
    let entries := registrations settings.duplicates .empty specs
    let skipping := buildMatcher { settings with invalid := .skip } specs
    let aborting := buildMatcher { settings with invalid := .abort } specs
    ∃ table,
      (∀ duplicates, (buildMatcher { settings with
        duplicates := duplicates, invalid := .skip } specs).result = .ok table) ∧
      (buildMatcher { settings with invalid := .abort }
        (acceptedSpecs entries)).result = .ok table ∧
      skipping.events = entries.flatMap SpecRegistration.report ++
        [.tableRegistered table.size (failures entries).length,
          table.builtEvent] ∧
      (failures entries).length + table.size + (droppedSpecs entries).length =
        specs.length ∧
      ((∃ other, aborting.result = .ok other) ↔ failures entries = []) ∧
      (failures entries = [] → aborting = skipping) ∧
      ∀ spec cause later, failures entries = (spec, cause) :: later →
        ∃ error, aborting.result = .error error ∧
          error = .unregistered spec cause ∧
          error.chain =
            [s!"failed to register {spec.method} {spec.template} for `{spec.selector}`",
              cause.message] := by
  intro entries skipping aborting
  have hskipping := buildMatcher_skip { settings with invalid := .skip } rfl specs
  have hclean (hnone : failures entries = []) : aborting = skipping := by
    apply buildMatcher_of_failures_eq_nil
    · rfl
    · exact hnone
  have hfirst (spec : RouteSpec) (cause : RegisterError)
      (later : List (RouteSpec × RegisterError))
      (hfailures : failures entries = (spec, cause) :: later) :
      aborting.result = .error (.unregistered spec cause) :=
    result_buildMatcher_abort rfl hfailures
  refine ⟨(builderAfter settings.duplicates .empty specs).build, ?_, ?_, ?_, ?_,
    ?_, hclean, ?_⟩
  · intro duplicates
    rw [buildMatcher_skip _ rfl, builderAfter_eq duplicates settings.duplicates]
  · have hnone := failures_registrations_acceptedSpecs settings.duplicates .empty
      specs
    have hsame : buildMatcher { settings with invalid := .abort }
          (acceptedSpecs entries) =
        buildMatcher { settings with invalid := .skip } (acceptedSpecs entries) := by
      apply buildMatcher_of_failures_eq_nil
      · rfl
      · exact hnone
    rw [hsame, buildMatcher_skip _ rfl, builderAfter_acceptedSpecs]
  · exact congrArg Logged.events hskipping
  · have hcount := length_failures_add_size settings.duplicates .empty specs
    have hempty : (Builder.empty : Builder String).size = 0 := rfl
    rw [hempty, Nat.zero_add] at hcount
    exact hcount
  · constructor
    · rintro ⟨other, hother⟩
      cases hfailures : failures entries with
      | nil => rfl
      | cons failure later =>
          obtain ⟨spec, cause⟩ := failure
          rw [hfirst spec cause later hfailures] at hother
          contradiction
    · intro hnone
      rw [hclean hnone]
      exact ⟨_, congrArg Logged.result hskipping⟩
  · intro spec cause later hfailures
    exact ⟨_, hfirst spec cause later hfailures, rfl, rfl⟩

theorem buildMatcher_skip_abort_with_conflict :
    (buildMatcher ⟨.reject, .abort, 0⟩
        [⟨"GET", "/v1/{a}", "first", none⟩, ⟨"GET", "/v1/{b=*}", "second", none⟩,
          ⟨"PUT", "/v1/", "third", none⟩, ⟨"PUT", "/v1", "fourth", none⟩]).result =
      .error (.unregistered ⟨"GET", "/v1/{b=*}", "second", none⟩
        (.conflict "GET" "/v1/{b}")) ∧
    (∃ table,
      (∀ duplicates, (buildMatcher ⟨duplicates, .skip, 0⟩
        [⟨"GET", "/v1/{a}", "first", none⟩, ⟨"GET", "/v1/{b=*}", "second", none⟩,
          ⟨"PUT", "/v1/", "third", none⟩,
          ⟨"PUT", "/v1", "fourth", none⟩]).result = .ok table) ∧
      (buildMatcher ⟨.reject, .abort, 0⟩ [⟨"GET", "/v1/{a}", "first", none⟩,
        ⟨"PUT", "/v1", "fourth", none⟩]).result = .ok table) ∧
    buildMatcher ⟨.keepFirst, .abort, 0⟩
        [⟨"GET", "/v1/{a}", "first", none⟩, ⟨"GET", "/v1/{b=*}", "second", none⟩] =
      buildMatcher ⟨.keepFirst, .skip, 0⟩
        [⟨"GET", "/v1/{a}", "first", none⟩,
          ⟨"GET", "/v1/{b=*}", "second", none⟩] := by
  let clean : List RouteSpec :=
    [⟨"GET", "/v1/{a}", "first", none⟩, ⟨"GET", "/v1/{b=*}", "second", none⟩]
  let mixed : List RouteSpec :=
    clean ++ [⟨"PUT", "/v1/", "third", none⟩, ⟨"PUT", "/v1", "fourth", none⟩]
  obtain ⟨table, hskip, haccepted, _, _, _, _, hfirst⟩ :=
    buildMatcher_skip_abort ⟨.reject, .abort, 0⟩ mixed
  obtain ⟨_, _, _, _, _, _, hclean, _⟩ :=
    buildMatcher_skip_abort ⟨.keepFirst, .abort, 0⟩ clean
  have hfailures : failures (registrations .reject .empty mixed) =
      [(⟨"GET", "/v1/{b=*}", "second", none⟩, .conflict "GET" "/v1/{b}"),
        (⟨"PUT", "/v1/", "third", none⟩,
          .parse (.malformed "/v1/" 4 .emptySegment))] := by
    decide +kernel
  have hkept : acceptedSpecs (registrations .reject .empty mixed) =
      [⟨"GET", "/v1/{a}", "first", none⟩, ⟨"PUT", "/v1", "fourth", none⟩] := by
    decide +kernel
  have hnone : failures (registrations .keepFirst .empty clean) = [] := by
    decide +kernel
  rw [hkept] at haccepted
  obtain ⟨error, hresult, herror, _⟩ := hfirst _ _ _ hfailures
  rw [herror] at hresult
  exact ⟨hresult, ⟨table, hskip, haccepted⟩, hclean hnone⟩

end HttpRoutes
