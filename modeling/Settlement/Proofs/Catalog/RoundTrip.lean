import Mathlib.Data.List.Nodup
import Settlement.Proofs.Binary64
import Settlement.Proofs.OrderedMap
import Settlement.Proofs.Reading
import Settlement.Recipe.Record
/-!
Catalogs are written and read back. What is written of a group is a map from goods to amounts, so
that a good which is listed twice comes back once, in its first place and with its last amount;
all else comes back as it was.
-/
namespace Settlement

namespace Good

theorem ofName_name (good : Good) : ofName good.name = .ok good := by
  rw [ofName, Text.string_ofString, ofName?_name]

theorem text_injective {a b : Good} (same : (a.name : Text) = b.name) : a = b := by
  have read := ofName_name a
  rw [same, ofName_name] at read
  exact (Except.ok.inj read).symm

end Good

theorem Labor.ofName_name (labor : Labor) : ofName labor.name = .ok labor := by
  rw [ofName, Text.string_ofString, ofName?_name]

/-! Groups. -/

namespace OrderGroup

/-- The group with every good once: in its first place, with its last amount. -/
def merged (group : OrderGroup Float) : OrderGroup Float :=
  { group with inputs := (OrderedMap.ofList group.inputs).entries }

/-- A good and its amount as a field. -/
def inputField (input : Good × Float) : Text × Document := (input.1.name, .real input.2)

variable {group : OrderGroup Float}

/-- To set the field of a good is to place the good. -/
theorem setField_inputField (good : Good) (amount : Float) (inputs : List (Good × Float)) :
    Document.setField good.name (.real amount) (inputs.map inputField) =
      (OrderedMap.place good amount inputs).map inputField := by
  induction inputs with
  | nil => rfl
  | cons input rest ih =>
    rw [List.map_cons, inputField, Document.setField, OrderedMap.place]
    by_cases same : input.1 = good
    · rw [if_pos same, if_pos (by rw [same]), List.map_cons]
      rfl
    · rw [if_neg same, if_neg fun name => same (Good.text_injective name), ih, List.map_cons]
      rfl

theorem inputsDocument_eq (group : OrderGroup Float) :
    group.inputsDocument = .object (group.merged.inputs.map inputField) := by
  have general (map : OrderedMap Good Float) :
      group.inputs.foldl (fun fields input =>
          Document.setField input.1.name (.real input.2) fields) (map.entries.map inputField) =
        (group.inputs.foldl (fun map entry => map.insert entry.1 entry.2) map).entries.map
          inputField := by
    induction group.inputs generalizing map with
    | nil => rfl
    | cons input rest ih =>
      rw [List.foldl_cons, List.foldl_cons, ← ih]
      exact congrArg (rest.foldl _) (setField_inputField input.1 input.2 map.entries)
  exact congrArg Document.object (general OrderedMap.empty)

theorem amounts_inputsDocument (group : OrderGroup Float) :
    group.inputsDocument.amounts Good.ofName = .ok group.merged.inputs := by
  have each : List.Forall₂ (fun field input =>
      (do return (← Good.ofName field.1, ← Document.amount field.2)) = Except.ok input)
        (group.merged.inputs.map inputField) group.merged.inputs := by
    rw [List.forall₂_map_left_iff, List.forall₂_same]
    intro input _
    rw [inputField, Good.ofName_name]
    rfl
  rw [inputsDocument_eq]
  exact mapM_eq_ok_iff.mpr each

theorem ofDocument_toDocument (group : OrderGroup Float) :
    ofDocument group.toDocument = .ok group.merged := by
  have labor : group.toDocument.optional "labor" = .ok (some (laborDocument group.labor)) := rfl
  have inputs : group.toDocument.optional "inputs" = .ok (some group.inputsDocument) := rfl
  unfold ofDocument
  rw [labor, inputs]
  simp only [bind, Except.bind, Option.getD_some, amounts_inputsDocument]
  cases head : group.labor with
  | none =>
    simp only [laborDocument]
    rw [merged, head]
    rfl
  | some labor =>
    have named : (Document.text labor.name).labor = .ok labor := Labor.ofName_name labor
    simp only [laborDocument, named, Functor.map, Except.map]
    rw [merged, head]
    rfl

/-- What is written of a group does not change when its goods are merged. -/
theorem toDocument_merged (group : OrderGroup Float) :
    group.merged.toDocument = group.toDocument := by
  have again : group.merged.merged.inputs = group.merged.inputs :=
    congrArg OrderedMap.entries (OrderedMap.ofList_entries _)
  rw [toDocument, inputsDocument_eq, again, ← inputsDocument_eq]
  rfl

theorem merged_eq_self_iff : group.merged = group ↔ (group.inputs.map Prod.fst).Nodup := by
  rw [← OrderedMap.entries_ofList_eq_iff]
  constructor
  · intro same
    exact congrArg OrderGroup.inputs same
  · intro same
    rw [merged, same]

end OrderGroup

theorem Output.ofDocument_toDocument (output : Output Float) :
    ofDocument output.toDocument = .ok output := by
  have good : output.toDocument.required "output" = .ok (.text output.good.name) := rfl
  have rate : output.toDocument.required "rate" = .ok (.real output.rate) := rfl
  have named : (Document.text output.good.name).good = .ok output.good := Good.ofName_name _
  unfold ofDocument
  rw [good, rate]
  simp only [bind, Except.bind, named]
  rfl

/-! Catalogs. -/

namespace Catalog

/-- The catalog with every good once in each group. -/
def merged (catalog : Catalog Float) : Catalog Float :=
  { catalog with orders := catalog.orders.map OrderGroup.merged }

theorem ofDocument_toDocument (catalog : Catalog Float) :
    ofDocument catalog.toDocument = .ok catalog.merged := by
  have orders : catalog.toDocument.optional "orders" =
      .ok (some (.list (catalog.orders.map OrderGroup.toDocument))) := rfl
  have outputs : catalog.toDocument.optional "productivity" =
      .ok (some (.object (catalog.outputs.entries.map fun entry =>
        ((entry.1.name : Text), entry.2.toDocument)))) := rfl
  have groups : (catalog.orders.map OrderGroup.toDocument).mapM OrderGroup.ofDocument =
      .ok (catalog.orders.map OrderGroup.merged) := by
    rw [mapM_eq_ok_iff, List.forall₂_map_left_iff, List.forall₂_map_right_iff, List.forall₂_same]
    exact fun group _ => group.ofDocument_toDocument
  have entries : (catalog.outputs.entries.map fun entry =>
      ((entry.1.name : Text), Output.toDocument entry.2)).mapM (fun field => do
        return (← Labor.ofName field.1, ← Output.ofDocument field.2)) =
      .ok catalog.outputs.entries := by
    rw [mapM_eq_ok_iff, List.forall₂_map_left_iff, List.forall₂_same]
    intro entry _
    dsimp only
    rw [Labor.ofName_name, Output.ofDocument_toDocument]
    rfl
  unfold ofDocument
  rw [orders, outputs]
  simp only [bind, Except.bind, Option.getD_some, Document.elements, Document.fields,
    groups] at entries ⊢
  rw [entries]
  dsimp only
  rw [OrderedMap.ofList_entries]
  rfl

theorem toDocument_merged (catalog : Catalog Float) :
    catalog.merged.toDocument = catalog.toDocument := by
  have groups : catalog.merged.orders.map OrderGroup.toDocument =
      catalog.orders.map OrderGroup.toDocument := by
    rw [merged, List.map_map]
    exact List.map_congr_left fun group _ => group.toDocument_merged
  rw [toDocument, groups]
  rfl

theorem sameAmount_self (amount : Float) : sameAmount amount amount = true := by
  rcases Binary64.beq_self_or_isNaN amount with same | none
  · rw [sameAmount, same, Bool.true_or]
  · rw [sameAmount, none, Bool.and_self, Bool.or_true]

theorem sameGroup_iff {a b : OrderGroup Float} : sameGroup a b = true ↔
    a.labor = b.labor ∧ List.Forall₂ (fun left right =>
      left.1 = right.1 ∧ sameAmount left.2 right.2 = true) a.inputs b.inputs := by
  simp only [sameGroup, Bool.and_assoc, Bool.and_eq_true, beq_iff_eq, List.all_eq_true,
    List.forall₂_iff_zip, Prod.forall]

theorem same_iff {a b : Catalog Float} : a.same b = true ↔
    List.Forall₂ (fun left right => sameGroup left right = true) a.orders b.orders ∧
      a.outputs.size = b.outputs.size ∧ ∀ entry ∈ a.outputs.entries, ∃ other,
        b.outputs.find? entry.1 = some other ∧ entry.2.good = other.good ∧
          sameAmount entry.2.rate other.rate = true := by
  simp only [same, Bool.and_eq_true, beq_iff_eq, List.all_eq_true, List.forall₂_iff_zip,
    Prod.forall, and_assoc, Option.any_eq_true]

theorem sameGroup_self (group : OrderGroup Float) : sameGroup group group = true := by
  rw [sameGroup_iff, List.forall₂_same]
  exact ⟨rfl, fun input _ => ⟨rfl, sameAmount_self input.2⟩⟩

theorem same_self (catalog : Catalog Float) : catalog.same catalog = true := by
  rw [same_iff, List.forall₂_same]
  refine ⟨fun group _ => sameGroup_self group, rfl, fun entry member => ?_⟩
  exact ⟨entry.2, (OrderedMap.find?_eq_some_iff _ _ _).mpr member, rfl, sameAmount_self _⟩

theorem goods_eq_of_sameGroup {a b : OrderGroup Float} (same : sameGroup a b = true) :
    a.inputs.map Prod.fst = b.inputs.map Prod.fst := by
  have goods : List.Forall₂ (· = ·) (a.inputs.map Prod.fst) (b.inputs.map Prod.fst) := by
    rw [List.forall₂_map_left_iff, List.forall₂_map_right_iff]
    exact (sameGroup_iff.mp same).2.imp fun _ _ => And.left
  rwa [List.forall₂_eq_eq_eq] at goods

/-- What comes back is the same exactly if no group lists a good twice. -/
theorem merged_same_iff {catalog : Catalog Float} : catalog.merged.same catalog = true ↔
    ∀ group ∈ catalog.orders, (group.inputs.map Prod.fst).Nodup := by
  constructor
  · intro same
    obtain ⟨groups, -⟩ := same_iff.mp same
    rw [merged, List.forall₂_map_left_iff, List.forall₂_same] at groups
    intro group member
    rw [← goods_eq_of_sameGroup (groups group member)]
    exact (OrderedMap.ofList group.inputs).distinct
  · intro distinct
    have unchanged : catalog.merged = catalog := by
      have groups : catalog.orders.map OrderGroup.merged = catalog.orders :=
        (List.map_congr_left fun group member =>
          OrderGroup.merged_eq_self_iff.mpr (distinct group member)).trans (List.map_id _)
      rw [merged, groups]
    rw [unchanged]
    exact same_self catalog

end Catalog

/-! Spellings. -/

/-- In some group of the document, two names stand for one good. -/
def Document.SpellsTwice (document : Document) : Prop :=
  ∃ groups group fields, document.field? "orders" = some (.list groups) ∧ group ∈ groups ∧
    group.field? "inputs" = some (.object fields) ∧
    ∃ first second good, first ∈ fields.map Prod.fst ∧ second ∈ fields.map Prod.fst ∧
      first ≠ second ∧ Good.ofName first = .ok good ∧ Good.ofName second = .ok good

/-- The inputs of a group that could be read are its fields, one by one. -/
theorem OrderGroup.amounts_of_ofDocument {document : Document} {group : OrderGroup Float}
    {fields : List (Text × Document)} (read : ofDocument document = .ok group)
    (inputs : document.optional "inputs" = .ok (some (.object fields))) :
    (Document.object fields).amounts Good.ofName = .ok group.inputs := by
  have behind {head : Option Labor} (success : (do
      let inputs ← (Document.object fields).amounts Good.ofName
      return (⟨head, inputs⟩ : OrderGroup Float)) = .ok group) :
      (Document.object fields).amounts Good.ofName = .ok group.inputs := by
    obtain ⟨inputs, amounts, same⟩ := bind_eq_ok_iff.mp success
    cases same
    exact amounts
  unfold ofDocument at read
  simp only [inputs, bind_eq_ok_iff] at read
  obtain ⟨head, _, read⟩ := read
  split at read
  · exact behind read
  · obtain ⟨labor, _, read⟩ := bind_eq_ok_iff.mp read
    exact behind read

theorem Document.optional_of_field? {name : Text} {document value : Document}
    (found : document.field? name = some value) : document.optional name = .ok (some value) := by
  cases document with
  | object fields => exact congrArg Except.ok found
  | _ => cases found

/-- The goods of amounts that could be read are those that the names of the fields stand for. -/
theorem Document.names_of_amounts {fields : List (Text × Document)}
    {inputs : List (Good × Float)} (read : (object fields).amounts Good.ofName = .ok inputs) :
    fields.map (fun field => Good.ofName field.1) =
      inputs.map fun input => Except.ok input.1 := by
  have each := mapM_eq_ok_iff.mp read
  rw [← List.forall₂_eq_eq_eq, List.forall₂_map_left_iff, List.forall₂_map_right_iff]
  refine each.imp fun field input success => ?_
  obtain ⟨good, named, rest⟩ := bind_eq_ok_iff.mp success
  obtain ⟨amount, _, same⟩ := bind_eq_ok_iff.mp rest
  cases same
  exact named

theorem Catalog.orders_of_ofDocument {document : Document} {catalog : Catalog Float}
    {groups : List Document} (read : ofDocument document = .ok catalog)
    (orders : document.optional "orders" = .ok (some (.list groups))) :
    List.Forall₂ (fun group order => OrderGroup.ofDocument group = .ok order) groups
      catalog.orders := by
  unfold ofDocument at read
  simp only [orders] at read
  obtain ⟨_, found, read⟩ := bind_eq_ok_iff.mp read
  cases found
  obtain ⟨_, elements, read⟩ := bind_eq_ok_iff.mp read
  cases elements
  obtain ⟨orders, each, read⟩ := bind_eq_ok_iff.mp read
  obtain ⟨_, _, read⟩ := bind_eq_ok_iff.mp read
  obtain ⟨_, _, read⟩ := bind_eq_ok_iff.mp read
  obtain ⟨_, _, same⟩ := bind_eq_ok_iff.mp read
  cases same
  exact mapM_eq_ok_iff.mp each

theorem exists_of_forall₂ {α β : Type} {relation : α → β → Prop} {items : List α}
    {others : List β} (related : List.Forall₂ relation items others) {item : α}
    (member : item ∈ items) : ∃ other ∈ others, relation item other := by
  induction related with
  | nil => cases member
  | @cons first other rest others here _ ih =>
    rcases List.mem_cons.mp member with rfl | behind
    · exact ⟨other, List.mem_cons_self, here⟩
    · obtain ⟨found, present, holds⟩ := ih behind
      exact ⟨found, List.mem_cons_of_mem _ present, holds⟩

/-- A catalog that is read from a document with two spellings of a good lists that good twice. -/
theorem Catalog.exists_repeated_of_spellsTwice {document : Document} {catalog : Catalog Float}
    (read : ofDocument document = .ok catalog) (twice : document.SpellsTwice) :
    ∃ group ∈ catalog.orders, ¬(group.inputs.map Prod.fst).Nodup := by
  obtain ⟨groups, written, fields, orders, member, inputs, first, second, good, one, other,
    apart, left, right⟩ := twice
  obtain ⟨group, present, success⟩ :=
    exists_of_forall₂ (orders_of_ofDocument read (Document.optional_of_field? orders)) member
  refine ⟨group, present, fun distinct => ?_⟩
  have goods := Document.names_of_amounts
    (OrderGroup.amounts_of_ofDocument success (Document.optional_of_field? inputs))
  have injective : Function.Injective (Except.ok : Good → Except Fault Good) :=
    fun _ _ same => Except.ok.inj same
  have each : (fields.map fun field => Good.ofName field.1).Nodup := by
    have named := distinct.map injective
    rw [List.map_map] at named
    rw [goods]
    exact named
  obtain ⟨a, memberA, rfl⟩ := List.mem_map.mp one
  obtain ⟨b, memberB, rfl⟩ := List.mem_map.mp other
  exact apart (congrArg Prod.fst
    (List.inj_on_of_nodup_map each memberA memberB (left.trans right.symm)))

namespace Catalog

/-- A catalog that is written and read back is the same exactly if no group lists a good twice. In
any case the outputs and the heads of the groups are what they were, and every group has its goods
in the order in which they first occurred, each with the amount that it had last; what is written
then is what was written before. A document in which a group spells a good in two ways gives a
catalog that does not come back. -/
theorem comes_back_merged (catalog : Catalog Float) :
    ∃ again, ofDocument catalog.toDocument = .ok again ∧
      (again.same catalog = true ↔
        ∀ group ∈ catalog.orders, (group.inputs.map Prod.fst).Nodup) ∧
      again.outputs = catalog.outputs ∧
      List.Forall₂ (fun group back => back.labor = group.labor ∧
        back.inputs.map Prod.fst = (group.inputs.map Prod.fst).eraseDups ∧
        ∀ good amount, (good, amount) ∈ back.inputs ↔
          ∃ front rest, group.inputs = front ++ (good, amount) :: rest ∧
            good ∉ rest.map Prod.fst) catalog.orders again.orders ∧
      again.toDocument = catalog.toDocument ∧
      ∀ document, ofDocument document = .ok catalog → document.SpellsTwice →
        again.same catalog = false := by
  refine ⟨catalog.merged, ofDocument_toDocument catalog, merged_same_iff, rfl, ?_,
    toDocument_merged catalog, ?_⟩
  · rw [merged, List.forall₂_map_right_iff, List.forall₂_same]
    intro group _
    exact ⟨rfl, OrderedMap.keys_ofList _, fun _ _ => OrderedMap.mem_entries_ofList⟩
  · intro document read twice
    obtain ⟨group, member, repeated⟩ := exists_repeated_of_spellsTwice read twice
    rw [Bool.eq_false_iff]
    intro same
    exact repeated (merged_same_iff.mp same group member)

/-- Farmers who sow wheat under two spellings. -/
def sowing : Document := .object [
  ("orders", .list [.object [
    ("labor", .text "farmer"),
    ("inputs", .object [("wheat", .whole 1), ("fish", .whole 3), ("Wheat", .real 2.5)])]])]

theorem sowing_spellsTwice : sowing.SpellsTwice := by
  have capital : Good.ofName "Wheat" = .ok .wheat := by
    have found : Good.ofName? "Wheat" = some .wheat := by decide +kernel
    rw [Good.ofName, Text.string_ofString, found]
  exact ⟨_, _, _, rfl, List.mem_singleton_self _, rfl, "wheat", "Wheat", .wheat,
    by decide +kernel, by decide +kernel, by decide +kernel, Good.ofName_name .wheat, capital⟩

theorem comes_back_merged_sowing :
    ∃ catalog again, ofDocument sowing = .ok catalog ∧
      ofDocument catalog.toDocument = .ok again ∧ again.outputs = catalog.outputs ∧
      again.toDocument = catalog.toDocument ∧ again.same catalog = false := by
  have success : (ofDocument sowing).toOption.isSome = true := by decide +kernel
  cases read : ofDocument sowing with
  | error fault =>
    rw [read] at success
    cases success
  | ok catalog =>
    obtain ⟨again, back, _, outputs, _, written, twice⟩ := comes_back_merged catalog
    exact ⟨catalog, again, rfl, back, outputs, written, twice sowing read sowing_spellsTwice⟩

end Catalog

end Settlement
