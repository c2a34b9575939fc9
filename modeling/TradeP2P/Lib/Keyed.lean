import Mathlib.Data.List.Nodup

/-! Lists whose items go by a key. Touching a key changes the first item that has it; a key no item
has gets a new item at the end, while there is room. -/
namespace Keyed

variable {α κ : Type} [DecidableEq κ] (key : α → κ)

def lookup (k : κ) (items : List α) : Option α := items.find? fun a => key a = k

def touch (k : κ) (fresh : α) (f : α → α) : Nat → List α → List α
  | 0, [] => []
  | _+1, [] => [f fresh]
  | room, a :: rest => if key a = k then f a :: rest else a :: touch k fresh f (room - 1) rest

section Touch
variable {key} {k : κ} {fresh : α} {f : α → α}

theorem lookupKey {a : α} {items : List α} (found : lookup key k items = some a) : key a = k := by
  simpa using List.find?_some found

theorem lookupMem {a : α} {items : List α} (found : lookup key k items = some a) : a ∈ items :=
  List.mem_of_find?_eq_some found

theorem lookupPlace (items : List α) : items[items.findIdx fun a => key a = k]? = lookup key k items :=
  List.find?_eq_getElem?_findIdx.symm

theorem lookupNone {items : List α} : lookup key k items = none ↔ ∀ a ∈ items, key a ≠ k := by
  simp [lookup]

theorem lookupOfMem {a : α} {items : List α} (distinct : (items.map key).Nodup) (mem : a ∈ items) :
    lookup key (key a) items = some a := by
  induction items with
  | nil => simp at mem
  | cons b rest ih =>
      simp only [List.map_cons, List.nodup_cons] at distinct
      rcases List.mem_cons.mp mem with rfl | inside
      · simp [lookup]
      · have other : key b ≠ key a := fun same => distinct.1 (same ▸ List.mem_map_of_mem inside)
        rw [lookup, List.find?_cons_of_neg (by simpa using other)]
        exact ih distinct.2 inside

/- In terms of places: an item that is there is changed where it stands. -/
theorem touchPlace (room : Nat) (items : List α) : touch key k fresh f room items =
    let place := items.findIdx fun a => key a = k
    if place ≠ items.length then items.modify place f
    else if items.length ≥ room then items else items ++ [f fresh] := by
  induction items generalizing room with
  | nil => cases room <;> simp [touch]
  | cons a rest ih =>
      simp only [touch]
      split
      · rename_i same
        simp [List.findIdx_cons, same]
      · rename_i other
        simp only [ih, List.findIdx_cons, other, decide_false, cond_false, List.length_cons, ne_eq, Nat.add_right_cancel_iff]
        have full : rest.length ≥ room - 1 ↔ rest.length + 1 ≥ room := by omega
        by_cases absent : (rest.findIdx fun a => key a = k) = rest.length
        · simp only [absent, not_true, if_false, full]
          split <;> rfl
        · simp only [absent, not_false_eq_true, if_true, List.modify_succ_cons]

/- Items of other keys are passed over. -/
theorem touchPast {items : List α} (others : ∀ a ∈ items, key a ≠ k) (room : Nat) (tail : List α) :
    touch key k fresh f room (items ++ tail) = items ++ touch key k fresh f (room - items.length) tail := by
  induction items generalizing room with
  | nil => rfl
  | cons a rest ih =>
      simp only [List.mem_cons, forall_eq_or_imp] at others
      have left : room - (rest.length + 1) = room - 1 - rest.length := by omega
      rw [List.cons_append, touch, if_neg others.1, ih others.2, List.length_cons, left, List.cons_append]

variable (keeps : ∀ a, key (f a) = key a) (named : key fresh = k)
include keeps

theorem touchKeys (k : κ) (fresh : α) (room : Nat) (items : List α) : (touch key k fresh f room items).map key = items.map key ∨
    lookup key k items = none ∧ items.length < room ∧ (touch key k fresh f room items).map key = items.map key ++ [key fresh] := by
  induction items generalizing room with
  | nil => cases room <;> simp [touch, keeps, lookup]
  | cons a rest ih =>
      simp only [touch]
      split
      · simp [keeps]
      · rename_i other
        rcases ih (room - 1) with same | ⟨absent, fits, grown⟩
        · simp [same]
        · exact .inr ⟨by simpa [lookup, other] using absent, by simp only [List.length_cons]; omega, by simp [grown]⟩

theorem touchOther {q : κ} (apart : key fresh ≠ q) {room : Nat} {items : List α} (other : k ≠ q) :
    lookup key q (touch key k fresh f room items) = lookup key q items := by
  induction items generalizing room with
  | nil => cases room <;> simp [touch, lookup, keeps, apart]
  | cons a rest ih =>
      simp only [touch]
      split
      · rename_i same
        have differs : key a ≠ q := same ▸ other
        simp [lookup, keeps, differs]
      · simp only [lookup, List.find?_cons]
        split
        · rfl
        · exact ih

include named

theorem touchOwn (room : Nat) (items : List α) : lookup key k (touch key k fresh f room items) =
    match lookup key k items with
    | some a => some (f a)
    | none => if items.length < room then some (f fresh) else none := by
  induction items generalizing room with
  | nil => cases room <;> simp [touch, lookup, keeps, named]
  | cons a rest ih =>
      simp only [touch]
      split
      · rename_i same
        simp [lookup, keeps, same]
      · rename_i other
        have step : lookup key k (a :: touch key k fresh f (room - 1) rest) = lookup key k (touch key k fresh f (room - 1) rest) := by
          simp [lookup, other]
        have tail : lookup key k (a :: rest) = lookup key k rest := by simp [lookup, other]
        have fits : rest.length < room - 1 ↔ (a :: rest).length < room := by
          simp only [List.length_cons]
          omega
        rw [step, ih, tail]
        simp only [fits]

theorem touchDistinct {room : Nat} {items : List α} (distinct : (items.map key).Nodup) :
    ((touch key k fresh f room items).map key).Nodup := by
  rcases touchKeys keeps k fresh room items with same | ⟨absent, _, grown⟩
  · rwa [same]
  · rw [grown, List.nodup_append]
    refine ⟨distinct, by simp, ?_⟩
    intro a mem b last
    obtain ⟨item, inside, rfl⟩ := List.mem_map.mp mem
    rw [List.mem_singleton.mp last, named]
    exact lookupNone.mp absent item inside

omit keeps named

theorem touchAll {P : α → Prop} {room : Nat} {items : List α} (all : ∀ a ∈ items, P a) (new : P (f fresh))
    (kept : ∀ a, P a → P (f a)) : ∀ a ∈ touch key k fresh f room items, P a := by
  induction items generalizing room with
  | nil => cases room <;> simp [touch, new]
  | cons b rest ih =>
      simp only [touch]
      split
      · simp only [List.mem_cons, forall_eq_or_imp] at all ⊢
        exact ⟨kept b all.1, all.2⟩
      · simp only [List.mem_cons, forall_eq_or_imp] at all ⊢
        exact ⟨all.1, ih all.2⟩

theorem touchLength {room : Nat} {items : List α} (fits : items.length ≤ room) :
    (touch key k fresh f room items).length ≤ room := by
  induction items generalizing room with
  | nil => cases room <;> simp [touch]
  | cons a rest ih =>
      simp only [List.length_cons] at fits
      simp only [touch]
      split
      · simpa using fits
      · have fewer : rest.length ≤ room - 1 := by omega
        have tail := ih fewer
        simp only [List.length_cons]
        omega

end Touch
end Keyed
