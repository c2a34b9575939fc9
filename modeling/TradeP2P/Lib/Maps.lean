import Mathlib.Data.List.AList

/-! Finite maps with one type of values: what an insertion or a removal does to the lookups and to the number of keys. -/
namespace Maps

variable {α β : Type} [DecidableEq α] {map : AList fun _ : α => β} {key other : α} {value new : β}

theorem lookupErased (held : (map.erase other).lookup key = some value) : key ≠ other ∧ map.lookup key = some value := by
  by_cases same : key = other
  · rw [same, AList.lookup_erase] at held
    cases held
  · rw [AList.lookup_erase_ne same] at held
    exact ⟨same, held⟩

theorem lookupInserted (held : (map.insert other new).lookup key = some value) :
    key = other ∧ value = new ∨ key ≠ other ∧ map.lookup key = some value := by
  by_cases same : key = other
  · rw [same, AList.lookup_insert] at held
    exact .inl ⟨same, (Option.some.inj held).symm⟩
  · rw [AList.lookup_insert_ne same] at held
    exact .inr ⟨same, held⟩

theorem keyHeld (held : map.lookup key ≠ none) : key ∈ map.keys :=
  AList.mem_keys.mp (AList.lookup_isSome.mp (Option.isSome_iff_ne_none.mpr held))

theorem erasedOne {items : List α} {item : α} (mem : item ∈ items) : (items.erase item).length + 1 = items.length := by
  rw [List.length_erase_of_mem mem]
  have := List.length_pos_of_mem mem
  omega

theorem keysErased (map : AList fun _ : α => β) (key : α) : (map.erase key).keys.length ≤ map.keys.length := by
  rw [AList.keys_erase]
  exact List.length_erase_le

theorem keysErasedOne (mem : key ∈ map.keys) : (map.erase key).keys.length + 1 = map.keys.length := by
  rw [AList.keys_erase, erasedOne mem]

theorem keysReplaced (held : map.lookup key ≠ none) : (map.insert key new).keys.length = map.keys.length := by
  rw [AList.keys_insert, List.length_cons, erasedOne (keyHeld held)]

theorem keysAdded (map : AList fun _ : α => β) (key : α) (new : β) : (map.insert key new).keys.length ≤ map.keys.length + 1 := by
  rw [AList.keys_insert, List.length_cons]
  exact Nat.succ_le_succ List.length_erase_le

end Maps
