import ChangeFeed.Envelope
import ChangeFeed.Proofs.Text.Cutting
/-!
# Identities — one for each captured table

The identity of a table is its name with dots between the parts, and a schema
that is left out leaves no trace. So an identity can be cut at its dots again,
provided no part has one of its own: `TableName.IsPlain` is that, and
`splitAll_identity` the cut. Then two tables never have one identity, and a
map of targets has to name each of them to bring both to one target.
-/


namespace ChangeFeed

/-- **The name of a captured table**, part by part; a schema may be left out. -/
structure TableName where
  database : Text
  schema : Option Text
  table : Text
deriving DecidableEq

namespace TableName

/-- The parts that there are. -/
def parts (name : TableName) : List Text := name.database :: (name.schema.toList ++ [name.table])

/-- **The parts can be told apart** when they are joined. -/
def IsPlain (name : TableName) : Prop := ∀ part ∈ name.parts, part.isBlank = false ∧ '.' ∉ part

instance (name : TableName) : Decidable name.IsPlain := inferInstanceAs (Decidable (∀ _ ∈ _, _))

/-- The parts say which of them is left out. -/
theorem eq_of_parts_eq {name other : TableName} (h : name.parts = other.parts) : name = other := by
  obtain ⟨database, schema, table⟩ := name
  obtain ⟨database', schema', table'⟩ := other
  cases schema <;> cases schema' <;> simp_all [parts]

end TableName

namespace Json

/-- A field that counts as left out: it is absent, null or blank. -/
def LeavesOut (block : Json) (key : String) : Prop :=
  block.get? key.toList = none ∨ block.get? key.toList = some .null ∨
    ∃ text, block.textField? key = some text ∧ text.isBlank = true

/-- **A source block names a table**. -/
structure NamesTable (block : Json) (name : TableName) : Prop where
  database : block.textField? "db" = some name.database
  schema : match name.schema with
    | some schema => block.textField? "schema" = some schema
    | none => block.LeavesOut "schema"
  table : block.textField? "table" = some name.table

variable {block : Json} {name : TableName}

/-- What is left out has no text, or a blank one. -/
theorem LeavesOut.isBlank {key : String} {text : Text} (h : block.LeavesOut key)
    (htext : block.textField? key = some text) : text.isBlank = true := by
  unfold textField? at htext
  rcases h with hnone | hnull | ⟨other, hother, hblank⟩
  · rw [hnone] at htext
    cases htext
  · rw [hnull] at htext
    cases htext
  · unfold textField? at hother
    cases hother.symm.trans htext
    exact hblank

/-- **The identity of a block's table** is made of its parts. -/
theorem NamesTable.identity_eq (h : block.NamesTable name) (hplain : name.IsPlain) :
    (SourceTable.ofJson block).identity = Text.joined ['.'] name.parts := by
  have hdatabase : name.database.isBlank = false := (hplain _ List.mem_cons_self).1
  have htable : name.table.isBlank = false := (hplain _ (by simp [TableName.parts])).1
  obtain ⟨hdatabaseText, hschemaText, htableText⟩ := h
  unfold SourceTable.identity SourceTable.ofJson
  rw [hdatabaseText, htableText]
  unfold tableIdentity TableName.parts
  cases hschema : name.schema with
  | none =>
    rw [hschema] at hschemaText
    cases htext : block.textField? "schema" with
    | none => simp [hdatabase, htable]
    | some text => simp [hdatabase, htable, LeavesOut.isBlank hschemaText htext]
  | some schema =>
    rw [hschema] at hschemaText
    have hpart : schema.isBlank = false := (hplain _ (by simp [TableName.parts, hschema])).1
    dsimp only at hschemaText
    rw [hschemaText]
    simp [hdatabase, htable, hpart]

/-- **An identity is cut at its dots again.** -/
theorem NamesTable.splitAll_identity (h : block.NamesTable name) (hplain : name.IsPlain) :
    Text.splitAll '.' (SourceTable.ofJson block).identity = name.parts := by
  rw [h.identity_eq hplain]
  exact Text.splitAll_joined (List.cons_ne_nil _ _) fun part hpart => (hplain part hpart).2

end Json

/-- A target that is found is an entry's. -/
theorem TargetMap.mem_of_find? {map : TargetMap} {source target : Text}
    (h : map.find? source = some target) : (source, target) ∈ map := by
  induction map with
  | nil => cases h
  | cons entry rest ih =>
    obtain ⟨key, old⟩ := entry
    unfold find? at h
    split at h
    · next hkey =>
      cases h
      exact hkey ▸ List.mem_cons_self
    · exact List.mem_cons_of_mem _ (ih h)

/-- Without a fixed target the targets are those of the map. -/
theorem Routing.mem_map_of_target? {routing : Routing} {identity target : Text}
    (hfixed : routing.fixed = none) (h : routing.target? identity = some target) :
    (identity, target) ∈ routing.map := by
  unfold target? at h
  rw [hfixed] at h
  dsimp only at h
  split at h
  · cases h
  · exact TargetMap.mem_of_find? h

namespace SourceTable

variable {first second : Json} {name other : TableName}

/-- **Identities do not collide.** Two source blocks whose parts can be told
apart have one identity only if they name one table, part by part. So where no
target is fixed, two tables go to one target only by two entries of the map, one
for each. -/
theorem identity_eq_iff (hfirst : first.NamesTable name) (hsecond : second.NamesTable other)
    (hname : name.IsPlain) (hother : other.IsPlain) :
    ((ofJson first).identity = (ofJson second).identity ↔ name = other) ∧
      ∀ routing : Routing, routing.fixed = none → name ≠ other → ∀ target,
        routing.target? (ofJson first).identity = some target →
        routing.target? (ofJson second).identity = some target →
        ∃ i j : Nat, i ≠ j ∧ routing.map[i]? = some ((ofJson first).identity, target) ∧
          routing.map[j]? = some ((ofJson second).identity, target) := by
  have hsame : (ofJson first).identity = (ofJson second).identity ↔ name = other := by
    constructor
    · intro h
      have hparts := congrArg (Text.splitAll '.') h
      rw [hfirst.splitAll_identity hname, hsecond.splitAll_identity hother] at hparts
      exact TableName.eq_of_parts_eq hparts
    · rintro rfl
      rw [hfirst.identity_eq hname, hsecond.identity_eq hname]
  refine ⟨hsame, fun routing hfixed hne target htarget hshared => ?_⟩
  obtain ⟨i, hi⟩ := List.mem_iff_getElem?.1 (Routing.mem_map_of_target? hfixed htarget)
  obtain ⟨j, hj⟩ := List.mem_iff_getElem?.1 (Routing.mem_map_of_target? hfixed hshared)
  refine ⟨i, j, ?_, hi, hj⟩
  rintro rfl
  -- one entry would have both identities
  exact hne (hsame.1 (Prod.mk.inj (Option.some.inj (hi.symm.trans hj))).1)

/-- White space at the ends of a part is kept, and a blank schema is left out. -/
theorem identity_eq_iff_spaced :
    let first : Json := .object [("db".toList, .string "shop".toList),
      ("schema".toList, .string " ".toList), ("table".toList, .string "orders".toList)]
    let second : Json := .object [("db".toList, .string "shop".toList),
      ("schema".toList, .null), ("table".toList, .string "orders ".toList)]
    let routing : Routing := ⟨none, [("shop.orders".toList, "ods.orders".toList),
      ("shop.orders ".toList, "ods.orders".toList)]⟩
    first.NamesTable ⟨"shop".toList, none, "orders".toList⟩ ∧
      second.NamesTable ⟨"shop".toList, none, "orders ".toList⟩ ∧
      (ofJson first).identity ≠ (ofJson second).identity ∧
      ∃ i j : Nat, i ≠ j ∧ routing.map[i]? = some ((ofJson first).identity, "ods.orders".toList) ∧
        routing.map[j]? = some ((ofJson second).identity, "ods.orders".toList) := by
  intro first second routing
  have hfirst : first.NamesTable ⟨"shop".toList, none, "orders".toList⟩ :=
    ⟨rfl, Or.inr (Or.inr ⟨_, rfl, by decide⟩), rfl⟩
  have hsecond : second.NamesTable ⟨"shop".toList, none, "orders ".toList⟩ :=
    ⟨rfl, Or.inr (Or.inl rfl), rfl⟩
  obtain ⟨hsame, hshared⟩ := identity_eq_iff hfirst hsecond (by decide) (by decide)
  have hne : (⟨"shop".toList, none, "orders".toList⟩ : TableName) ≠
      ⟨"shop".toList, none, "orders ".toList⟩ := by decide
  exact ⟨hfirst, hsecond, fun h => hne (hsame.1 h),
    hshared routing rfl hne "ods.orders".toList (by decide) (by decide)⟩

end SourceTable

end ChangeFeed
