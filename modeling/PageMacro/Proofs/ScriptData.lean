import PageMacro.Proofs.NumberTexts
import PageMacro.Script.Data

/-!
# Values that pass through a script

A value goes to a script as data of the script and comes back as a value. The way there has one rule
for numbers on their own and another for those inside lists and maps, and a null is no value on its
own but a member of a list or map. What JSON can carry comes back as it went, with every member in its
place; only the sign of a zero on its own is lost, since it passes as a whole number.
-/

namespace PageMacro

/-- The trees of JSON data: each name of a map is there once, as in any map. -/
inductive Tree.IsJson : Tree → Prop
  | null : IsJson .null
  | bool (b : Bool) : IsJson (.bool b)
  | num (x : Float) : IsJson (.num x)
  | str (s : String) : IsJson (.str s)
  | list {items : List Tree} (h : ∀ t ∈ items, IsJson t) : IsJson (.list items)
  | map {fields : List (String × Tree)} (hnames : (fields.map Prod.fst).Nodup)
      (h : ∀ f ∈ fields, IsJson f.2) : IsJson (.map fields)

namespace Script.Data

variable {label : NodeId → String}

/-! ## Inside lists and maps -/

theorem toTrees_ofTrees {items : List Tree}
    (h : ∀ t ∈ items, (ofTree label t).toTree = t) : toTrees (ofTrees label items) = items := by
  induction items with
  | nil => rfl
  | cons item rest ih =>
      rw [List.forall_mem_cons] at h
      rw [ofTrees, toTrees, h.1, ih h.2]

/-- The fields of a map come back in their order, after those that are there already. -/
theorem toFields_ofFields {fields found : List (String × Tree)}
    (hnames : ((found ++ fields).map Prod.fst).Nodup)
    (h : ∀ f ∈ fields, (ofTree label f.2).toTree = f.2) :
    toFields (ofFields label fields) found = found ++ fields := by
  induction fields generalizing found with
  | nil => rw [ofFields, toFields, List.append_nil]
  | cons field rest ih =>
      obtain ⟨name, t⟩ := field
      rw [List.forall_mem_cons] at h
      have hnew : found.any (fun f => f.1 == name) = false := by
        rw [List.any_eq_false]
        intro f hf hname
        rw [List.map_append, List.map_cons, List.nodup_append] at hnames
        exact hnames.2.2 f.1 (List.mem_map.mpr ⟨f, hf, rfl⟩) name List.mem_cons_self
          (beq_iff_eq.mp hname)
      have hshift : found ++ (name, t) :: rest = (found ++ [(name, t)]) ++ rest := by
        rw [List.append_assoc, List.singleton_append]
      rw [hshift] at hnames
      rw [ofFields, toFields, fieldName, h.1, hnew, if_neg (by decide), ih hnames h.2, hshift]

/-- What is inside an object comes back as it was. -/
theorem toTree_ofTree {t : Tree} (h : t.IsJson) : (ofTree label t).toTree = t := by
  induction h with
  | null => rfl
  | bool b => rfl
  | num x => rfl
  | str s => rfl
  | list _ ih => rw [ofTree, toTree, toTrees_ofTrees ih]
  | @map fields hnames _ ih =>
      have hfields : toFields (ofFields label fields) [] = [] ++ fields :=
        toFields_ofFields hnames ih
      rw [ofTree, toTree, hfields, List.nil_append]

/-! ## On their own -/

/-- A number on its own comes back as it was; only a zero loses its sign. -/
theorem toValue_ofNumber (x : Float) : (Value.number x).SurvivesAs (ofNumber x).toValue := by
  unfold ofNumber
  dsimp only
  split
  · rename_i hwhole
    rw [Bool.and_eq_true, Decimal.beq_iff] at hwhole
    rcases hwhole.1 with ⟨hsame, -⟩ | ⟨-, rfl | rfl⟩
    · exact .inl (congrArg Value.number hsame)
    · have hzero : Float.ofInt (Value.truncate 0.0) = 0.0 := by decide +kernel
      exact .inl (congrArg Value.number hzero)
    · have hzero : Float.ofInt (Value.truncate (-0.0)) = 0.0 := by decide +kernel
      exact .inr ⟨rfl, congrArg Value.number hzero⟩
  · exact .inl rfl

/-- **Values come back from a script as they went.** What a script is given for a value of JSON data,
a null, a flag, a number, a text, a list or a map of these, and what the page gets back for that, is
a value of the same kind, and the same value with the same tree inside, of whatever depth: nothing is
lost, merged or moved. The one exception is the number -0 on its own, which comes back as 0. -/
theorem values_come_back (label : NodeId → String) {t : Tree} (h : t.IsJson) :
    (ofValue label (.ofTree t)).toValue.kind = (Value.ofTree t).kind ∧
      (Value.ofTree t).SurvivesAs (ofValue label (.ofTree t)).toValue := by
  have hback : (Value.ofTree t).SurvivesAs (ofValue label (.ofTree t)).toValue := by
    cases h with
    | null => exact .inl rfl
    | bool b => exact .inl rfl
    | num x => exact toValue_ofNumber x
    | str s => exact .inl rfl
    | list hitems => exact .inl (congrArg Value.ofTree (toTree_ofTree (.list hitems)))
    | map hnames hfields =>
        exact .inl (congrArg Value.ofTree (toTree_ofTree (.map hnames hfields)))
  exact ⟨hback.kind, hback⟩

/-- A map with a null and a list that holds two nulls, a zero with its sign and a map. -/
def nestedData : Tree :=
  .map [("a", .null), ("b", .list [.null, .num (-0.0), .null, .map [("a", .bool true)]])]

/-- Nested data comes back as it was. -/
theorem nested_data_comes_back :
    nestedData.IsJson ∧
      (ofValue (fun _ => "") (.ofTree nestedData)).toValue = .object nestedData := by
  have hinner : Tree.IsJson (.map [("a", .bool true)]) :=
    .map (by decide) (List.forall_mem_singleton.mpr (.bool true))
  have hlist : Tree.IsJson (.list [.null, .num (-0.0), .null, .map [("a", .bool true)]]) := by
    refine .list ?_
    simp only [List.forall_mem_cons]
    exact ⟨.null, .num _, .null, hinner, fun _ h => absurd h List.not_mem_nil⟩
  have hjson : nestedData.IsJson := by
    refine .map (by decide) ?_
    simp only [List.forall_mem_cons]
    exact ⟨.null, hlist, fun _ h => absurd h List.not_mem_nil⟩
  refine ⟨hjson, ?_⟩
  rcases (values_come_back (fun _ => "") hjson).2 with hback | ⟨hnumber, -⟩
  · exact hback
  · cases hnumber

end Script.Data

end PageMacro
