import HttpRoutes.Rule.Json
import Mathlib.Data.List.Nodup

/-!
# Reading a rule set that has been written

A record is written as an object with one member for each of its fields that has
a value.  Which fields have one differs: some always have, an optional field has
if it is set, and the additional bindings of a rule have if there are any.  The
reader looks a field up by its name and takes the default of a field that is not
there, so all that matters of an object is which value it has for which name.
What is left out in writing is in each case what the reader puts in.

A value is written with a certain nesting, and reading it takes no more depth
than that.
-/

namespace HttpRoutes

namespace Json

/-! ## Records as objects -/

/-- The fields of a record that have a value. -/
def given (names : List String) (value? : String → Option Json) :
    List (String × Json) :=
  names.filterMap fun name => (value? name).map fun value => (name, value)

/-- The object that lists the fields of a record that have a value. -/
def ofFields (names : List String) (value? : String → Option Json) : Json :=
  .object ((given names value?).map fun field => member field.1 field.2)

theorem namedMembers_map_member (fields : List (String × Json)) :
    namedMembers (fields.map fun field => member field.1 field.2) =
      some fields := by
  induction fields with
  | nil => rfl
  | cons field fields ih =>
      rw [List.map_cons, member, namedMembers, ih]
      rfl

theorem map_fst_given_sublist (names : List String)
    (value? : String → Option Json) :
    ((given names value?).map Prod.fst).Sublist names := by
  induction names with
  | nil => exact List.Sublist.slnil
  | cons name names ih =>
      rw [given, List.filterMap_cons]
      cases value? name with
      | none => exact ih.cons name
      | some value => exact ih.cons_cons name

theorem mem_given_iff {names : List String} {value? : String → Option Json}
    {name : String} {value : Json} :
    (name, value) ∈ given names value? ↔ name ∈ names ∧ value? name = some value := by
  simp only [given, List.mem_filterMap, Option.map_eq_some_iff, Prod.mk.injEq]
  constructor
  · rintro ⟨_, hname, _, hvalue, rfl, rfl⟩
    exact ⟨hname, hvalue⟩
  · rintro ⟨hname, hvalue⟩
    exact ⟨name, hname, value, hvalue, rfl, rfl⟩

theorem find?_given {names : List String} {name : String}
    (hname : name ∈ names) (value? : String → Option Json) :
    ((given names value?).find? fun field => field.1 = name) =
      (value? name).map fun value => (name, value) := by
  induction names with
  | nil => contradiction
  | cons other names ih =>
      rw [given, List.filterMap_cons]
      by_cases hother : other = name
      · subst other
        cases hvalue : value? name with
        | some value => simp
        | none =>
            change (given names value?).find? _ = none
            rw [List.find?_eq_none]
            rintro ⟨other, value⟩ hmem heq
            rw [decide_eq_true_eq] at heq
            rw [← heq, (mem_given_iff.mp hmem).2] at hvalue
            contradiction
      · have hlater := ih ((List.mem_cons.mp hname).resolve_left (Ne.symm hother))
        cases value? other with
        | none => exact hlater
        | some value =>
            rw [Option.map_some, List.find?_cons_of_neg (by simpa using hother)]
            exact hlater

theorem nesting_le_of_mem {name : Option String} {value : Json}
    {members : List (Option String × Json)} (hmem : (name, value) ∈ members) :
    value.nesting ≤ nestingOfMembers members := by
  induction members with
  | nil => contradiction
  | cons first members ih =>
      rw [nestingOfMembers]
      rcases List.mem_cons.mp hmem with rfl | hlater
      · exact Nat.le_max_left _ _
      · exact Nat.le_trans (ih hlater) (Nat.le_max_right _ _)

/-- The value of a field does not need more depth than the record has below
itself. -/
theorem nesting_lt_of_field {names : List String} {name : String}
    {value? : String → Option Json} {value : Json} (hname : name ∈ names)
    (hvalue : value? name = some value) :
    value.nesting < (ofFields names value?).nesting := by
  have hgiven : (name, value) ∈ given names value? :=
    mem_given_iff.mpr ⟨hname, hvalue⟩
  have hmem : (some name, value) ∈
      (given names value?).map fun field => member field.1 field.2 :=
    List.mem_map.mpr ⟨(name, value), hgiven, rfl⟩
  rw [ofFields, nesting]
  exact Nat.lt_succ_of_le (nesting_le_of_mem hmem)

theorem map_member_given_cons (name : String) (names : List String)
    (value? : String → Option Json) :
    ((given (name :: names) value?).map fun field => member field.1 field.2) =
      optionalMember name (value? name) ++
        (given names value?).map fun field => member field.1 field.2 := by
  rw [given, List.filterMap_cons]
  cases value? name <;> rfl

/-! ## Reading records -/

theorem record_ofFields {depth : Nat} (hdepth : depth ≠ 0)
    {names : List String} (hnames : names.Nodup)
    (value? : String → Option Json) :
    ruleNotation.record depth names (ofFields names value?) =
      some (given names value?) := by
  have hfields : ruleNotation.fields depth names (ofFields names value?) =
      some (given names value?) := by
    rw [ruleNotation, ofFields]
    simp only [if_neg hdepth, fields?, namedMembers_map_member]
  have honce : names.all (fun name =>
      ((given names value?).filter fun field => field.1 = name).length ≤ 1) =
        true := by
    rw [List.all_eq_true]
    intro name _
    have hnodup := hnames.sublist (map_fst_given_sublist names value?)
    have hcount := List.nodup_iff_count_le_one.mp hnodup name
    rw [List.count, List.countP_map, List.countP_eq_length_filter] at hcount
    simp only [Function.comp_def, beq_eq_decide] at hcount
    exact decide_eq_true hcount
  rw [Notation.record, hfields]
  exact if_pos honce

theorem field_given {β : Type} {names : List String} {name : String}
    (hname : name ∈ names) (value? : String → Option Json) (missing : Option β)
    (decode : Json → Option β) :
    Notation.field (given names value?) name missing decode =
      (value? name).elim missing decode := by
  rw [Notation.field, find?_given hname]
  cases value? name <;> rfl

theorem option_text (text : Option String) :
    (text.map ofText).elim (some none) (ruleNotation.option ruleNotation.text) =
      some text := by
  cases text <;> rfl

end Json

/-! ## Custom patterns -/

namespace CustomPattern

def value? (custom : CustomPattern) : String → Option Json
  | "kind" => some (.ofText custom.kind)
  | "path" => some (.ofText custom.path)
  | _ => none

theorem toJson_eq (custom : CustomPattern) :
    custom.toJson = .ofFields customFields custom.value? := rfl

theorem read_toJson (custom : CustomPattern) {depth : Nat} (hdepth : depth ≠ 0) :
    Json.ruleNotation.custom depth custom.toJson = some custom := by
  rw [Notation.custom, toJson_eq, Json.record_ofFields hdepth (by decide)]
  rfl

theorem read_optional {depth : Nat} (custom : Option CustomPattern)
    (hdepth : custom.isSome → depth ≠ 0) :
    (custom.map toJson).elim (some none)
        (Json.ruleNotation.option (Json.ruleNotation.custom depth)) =
      some custom := by
  cases custom with
  | none => rfl
  | some custom =>
      have hread := custom.read_toJson (hdepth rfl)
      change some <$> Json.ruleNotation.custom depth custom.toJson = some custom
      rw [hread]
      rfl

end CustomPattern

/-! ## Rules -/

namespace HttpRule

/-- What is written for the field of a name.  Nothing is written for an option
that is not set and for an empty list of additional bindings. -/
def value? (rule : HttpRule) : String → Option Json
  | "selector" => some (.ofText rule.selector)
  | "get" => rule.get.map .ofText
  | "put" => rule.put.map .ofText
  | "post" => rule.post.map .ofText
  | "delete" => rule.delete.map .ofText
  | "patch" => rule.patch.map .ofText
  | "custom" => rule.custom.map CustomPattern.toJson
  | "body" => rule.body.map .ofText
  | "additional_bindings" =>
    if rule.additionalBindings.isEmpty then none
    else some (.array (rulesToJson rule.additionalBindings))
  | _ => none

theorem toJson_eq (rule : HttpRule) :
    rule.toJson = .ofFields ruleFields rule.value? := by
  obtain ⟨selector, get, put, post, delete, patch, custom, body, additional⟩ := rule
  rw [toJson, Json.ofFields, ruleFields]
  simp only [Json.map_member_given_cons, List.append_assoc]
  rw [Json.given, List.filterMap_nil, List.map_nil, List.append_nil]
  rfl

theorem read_text (rule : HttpRule) (name : String) {text : Option String}
    (hname : name ∈ ruleFields) (hvalue : rule.value? name = text.map .ofText) :
    Notation.field (Json.given ruleFields rule.value?) name (pure none)
        (Json.ruleNotation.option Json.ruleNotation.text) =
      some text := by
  rw [Json.field_given hname, hvalue]
  exact Json.option_text text

theorem read_custom (rule : HttpRule) {depth : Nat}
    (hdepth : rule.toJson.nesting ≤ depth + 1) :
    Notation.field (Json.given ruleFields rule.value?) "custom" (pure none)
        (Json.ruleNotation.option (Json.ruleNotation.custom depth)) =
      some rule.custom := by
  rw [Json.field_given (by decide)]
  apply CustomPattern.read_optional
  intro hsome hzero
  obtain ⟨custom, hcustom⟩ := Option.isSome_iff_exists.mp hsome
  have hvalue : rule.value? "custom" = some custom.toJson := by
    rw [value?, hcustom]
    rfl
  have hname : "custom" ∈ ruleFields := by decide
  have hlt := Json.nesting_lt_of_field hname hvalue
  rw [← toJson_eq, CustomPattern.toJson, Json.nesting] at hlt
  omega

/-- A rule is read back if its additional bindings are. -/
theorem read_of_additional (rule : HttpRule) {depth : Nat}
    (hdepth : rule.toJson.nesting ≤ depth)
    (hadditional : ∀ {depth : Nat},
      Json.nestingOfItems (rulesToJson rule.additionalBindings) ≤ depth →
        (rulesToJson rule.additionalBindings).mapM (Json.ruleNotation.rule depth) =
          some rule.additionalBindings) :
    Json.ruleNotation.rule depth rule.toJson = some rule := by
  have hselector : Notation.field (Json.given ruleFields rule.value?) "selector"
      (pure "") Json.ruleNotation.text = some rule.selector :=
    Json.field_given (by decide) _ _ _
  have hget := rule.read_text "get" (by decide) rfl
  have hput := rule.read_text "put" (by decide) rfl
  have hpost := rule.read_text "post" (by decide) rfl
  have hdelete := rule.read_text "delete" (by decide) rfl
  have hpatch := rule.read_text "patch" (by decide) rfl
  have hbody := rule.read_text "body" (by decide) rfl
  obtain ⟨depth, rfl⟩ : ∃ below, depth = below + 1 := by
    rw [toJson_eq, Json.ofFields, Json.nesting] at hdepth
    exact ⟨depth - 1, by omega⟩
  have hcustom := rule.read_custom hdepth
  have hname : "additional_bindings" ∈ ruleFields := by decide
  rw [toJson_eq, Notation.rule,
    Json.record_ofFields (Nat.succ_ne_zero depth) (by decide)]
  simp only [Option.bind_eq_bind, Option.bind_some, hselector, hget, hput, hpost,
    hdelete, hpatch, hbody, hcustom, Json.find?_given hname]
  cases hlist : rule.additionalBindings with
  | nil =>
      have hvalue : rule.value? "additional_bindings" = none := by
        rw [value?, hlist]
        rfl
      rw [hvalue, ← hlist]
      cases rule
      rfl
  | cons first others =>
      have hvalue : rule.value? "additional_bindings" =
          some (.array (rulesToJson rule.additionalBindings)) := by
        rw [value?, hlist]
        rfl
      have hlt := Json.nesting_lt_of_field hname hvalue
      rw [← toJson_eq, Json.nesting] at hlt
      obtain ⟨below, rfl⟩ : ∃ below, depth = below + 1 :=
        ⟨depth - 1, by omega⟩
      have hnesting : Json.nestingOfItems
          (rulesToJson rule.additionalBindings) ≤ below := by
        omega
      have hitems : Json.ruleNotation.items (below + 1)
          (.array (rulesToJson rule.additionalBindings)) =
            some (rulesToJson rule.additionalBindings) := rfl
      rw [hvalue]
      simp only [Option.map_some, hitems, Option.bind_some, hadditional hnesting]
      cases rule
      rfl

end HttpRule

mutual

theorem HttpRule.read_toJson (rule : HttpRule) {depth : Nat}
    (hdepth : rule.toJson.nesting ≤ depth) :
    Json.ruleNotation.rule depth rule.toJson = some rule := by
  match rule with
  | ⟨selector, get, put, post, delete, patch, custom, body, additional⟩ =>
      apply HttpRule.read_of_additional _ hdepth
      intro depth hdepth
      exact read_rulesToJson additional hdepth

theorem read_rulesToJson (rules : List HttpRule) {depth : Nat}
    (hdepth : Json.nestingOfItems (rulesToJson rules) ≤ depth) :
    (rulesToJson rules).mapM (Json.ruleNotation.rule depth) = some rules := by
  match rules with
  | [] => rfl
  | rule :: rules =>
      rw [rulesToJson, Json.nestingOfItems, Nat.max_le] at hdepth
      rw [rulesToJson, List.mapM_cons, HttpRule.read_toJson rule hdepth.1,
        read_rulesToJson rules hdepth.2]
      rfl

end

/-! ## Rule sets -/

namespace RuleSet

theorem toJson_eq (rules : RuleSet) :
    rules.toJson = .ofFields ["http"] fun _ =>
      some (.ofFields ["rules"] fun _ =>
        some (.array (rulesToJson rules.rules))) := rfl

theorem nesting_toJson (rules : RuleSet) :
    rules.toJson.nesting = Json.nestingOfItems (rulesToJson rules.rules) + 3 := by
  simp [toJson, Json.member, Json.nesting, Json.nestingOfMembers]

theorem read_toJson (rules : RuleSet) {depth : Nat}
    (hdepth : rules.toJson.nesting ≤ depth) :
    Json.ruleNotation.ruleSet depth rules.toJson = some rules := by
  rw [nesting_toJson] at hdepth
  obtain ⟨below, rfl⟩ : ∃ below, depth = below + 3 := ⟨depth - 3, by omega⟩
  have hrules := read_rulesToJson rules.rules (Nat.le_of_add_le_add_right hdepth)
  have hitems : Json.ruleNotation.items (below + 1)
      (.array (rulesToJson rules.rules)) = some (rulesToJson rules.rules) := rfl
  rw [Notation.ruleSet, toJson_eq,
    Json.record_ofFields (Nat.succ_ne_zero (below + 2)) (List.nodup_singleton "http")]
  simp only [Option.bind_eq_bind, Option.bind_some,
    Json.field_given List.mem_cons_self, Option.elim_some, Nat.add_one_sub_one,
    Json.record_ofFields (Nat.succ_ne_zero (below + 1)) (List.nodup_singleton "rules")]
  change ((Json.ruleNotation.items (below + 1) _).bind fun items =>
    items.mapM (Json.ruleNotation.rule below)).bind _ = _
  rw [hitems, Option.bind_some, hrules]
  rfl

/-- What is written for a rule set is read as this rule set, at every depth that
allows for its nesting, and so its bindings or the error in their place are
those of the rule set that was written.  This is so although a rule is written
with no more fields than those for which it has a value. -/
theorem ofJson?_toJson (rules : RuleSet) :
    RuleSet.ofJson? rules.toJson = some rules ∧
      (RuleSet.ofJson? rules.toJson).map RuleSet.routes = some rules.routes ∧
      (∀ depth, rules.toJson.nesting ≤ depth →
        Json.ruleNotation.ruleSet depth rules.toJson = some rules) ∧
      ∀ rule : HttpRule, rule.toJson = .ofFields ruleFields rule.value? := by
  have hread : RuleSet.ofJson? rules.toJson = some rules :=
    rules.read_toJson (Nat.le_add_right _ 3)
  refine ⟨hread, ?_, fun depth => rules.read_toJson, HttpRule.toJson_eq⟩
  rw [hread]
  rfl

theorem ofJson?_toJson_with_nested_bindings :
    let nested : HttpRule :=
      ⟨"", none, some "", none, none, none, none, none, []⟩
    let inner : HttpRule :=
      ⟨"b", none, none, none, some "/b", none, none, some "", [nested]⟩
    let outer : HttpRule :=
      ⟨"", some "/a", none, none, none, none, some ⟨"", ""⟩, none, [inner, .blank]⟩
    (RuleSet.mk [outer]).toJson.nesting ≤ jsonDepth ∧
      Json.ruleNotation.ruleSet jsonDepth (RuleSet.mk [outer]).toJson =
        some ⟨[outer]⟩ := by
  intro nested inner outer
  have hdepth : (RuleSet.mk [outer]).toJson.nesting ≤ jsonDepth := by
    decide
  exact ⟨hdepth, (ofJson?_toJson ⟨[outer]⟩).2.2.1 jsonDepth hdepth⟩

end RuleSet
end HttpRoutes
