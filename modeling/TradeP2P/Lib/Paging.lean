import Mathlib.Data.List.Nodup
import Mathlib.Data.List.Pairwise

/-! Items that are handed out page by page in the order of their keys, while other items come and go. A page goes
on behind a cursor, the key of the last item of the page before it. -/
namespace Paging
variable {α κ : Type} {key : α → κ}

structure Page (α κ : Type) where
  items : List α
  next : Option κ

def cut (key : α → κ) (limit : Nat) (left : List α) : Page α κ where
  items := left.take limit
  next := if left.length > (left.take limit).length then (left.take limit).getLast?.map key else none

theorem cutNext {limit : Nat} {left : List α} {c : κ} :
    (cut key limit left).next = some c ↔ left.drop limit ≠ [] ∧ ∃ a, (left.take limit).getLast? = some a ∧ key a = c := by
  simp only [cut, Option.ite_none_right_eq_some, Option.map_eq_some_iff, List.length_take, ne_eq, List.drop_eq_nil_iff]
  constructor
  · intro more
    exact ⟨by omega, more.2⟩
  · intro more
    exact ⟨by omega, more.2⟩

variable [LT κ]

def Behind (cursor : Option κ) (k : κ) : Prop := ∀ c ∈ cursor, c < k

/- A page of some items behind a cursor leaves none of them out before the page after it. -/
structure TakenOf (key : α → κ) (items : List α) (cursor : Option κ) (page : Page α κ) : Prop where
  rising : (page.items.map key).Pairwise (· < ·)
  there : ∀ a ∈ page.items, a ∈ items
  behind : ∀ a ∈ page.items, Behind cursor (key a)
  covers : ∀ a ∈ items, Behind cursor (key a) → (∀ c ∈ page.next, ¬c < key a) → a ∈ page.items
  next : ∀ c ∈ page.next, (∃ a ∈ page.items, key a = c) ∧ ∀ a ∈ page.items, ¬c < key a

section Ordered
variable [LE κ] [Std.IsLinearOrder κ] [Std.LawfulOrderLT κ]

theorem lastGreatest {items : List α} (rising : (items.map key).Pairwise (· < ·)) {a : α} (last : items.getLast? = some a) :
    ∀ b ∈ items, ¬key a < key b := by
  obtain ⟨front, rfl⟩ := List.getLast?_eq_some_iff.mp last
  rw [List.map_append, List.pairwise_append] at rising
  intro b mem
  rcases List.mem_append.mp mem with earlier | own
  · exact Std.not_lt.mpr (Std.le_of_lt (rising.2.2 _ (List.mem_map_of_mem earlier) _ (by simp)))
  · rw [List.mem_singleton.mp own]
    exact Std.lt_irrefl

end Ordered

/-! How a page is taken. -/
section Taking
variable [DecidableLT κ]

def after (key : α → κ) : Option κ → List α → List α
  | none, sorted => sorted
  | some c, sorted => sorted.dropWhile fun a => !decide (c < key a)

theorem afterSuffix (cursor : Option κ) (sorted : List α) : after key cursor sorted <:+ sorted := by
  cases cursor with
  | none => exact List.suffix_refl sorted
  | some c => exact List.dropWhile_suffix _

variable [LE κ] [Std.IsLinearOrder κ] [Std.LawfulOrderLT κ]

/- In a list that rises, all that is behind the cursor comes after what is not. -/
theorem memAfter {cursor : Option κ} {sorted : List α} (rising : (sorted.map key).Pairwise (· < ·)) {a : α} :
    a ∈ after key cursor sorted ↔ a ∈ sorted ∧ Behind cursor (key a) := by
  cases cursor with
  | none => simp [after, Behind]
  | some c =>
      simp only [Behind, Option.mem_some_iff, forall_eq', after]
      induction sorted with
      | nil => simp
      | cons b rest ih =>
          rw [List.map_cons, List.pairwise_cons] at rising
          have later := ih rising.2
          by_cases past : c < key b
          · simp only [List.dropWhile_cons, past, decide_true, Bool.not_true, Bool.false_eq_true, if_false, List.mem_cons]
            constructor
            · intro mem
              refine ⟨mem, ?_⟩
              rcases mem with rfl | mem
              · exact past
              · exact Std.lt_trans past (rising.1 _ (List.mem_map_of_mem mem))
            · exact And.left
          · simp only [List.dropWhile_cons, past, decide_false, Bool.not_false, if_true, List.mem_cons]
            rw [later]
            constructor
            · intro there
              exact ⟨.inr there.1, there.2⟩
            · rintro ⟨rfl | mem, behind⟩
              · exact absurd behind past
              · exact ⟨mem, behind⟩

theorem cutTaken {sorted items : List α} {cursor : Option κ} {limit : Nat} (rising : (sorted.map key).Pairwise (· < ·))
    (same : ∀ a, a ∈ sorted ↔ a ∈ items) (positive : 0 < limit) :
    TakenOf key items cursor (cut key limit (after key cursor sorted)) := by
  have left : ((after key cursor sorted).map key).Pairwise (· < ·) :=
    rising.sublist ((afterSuffix cursor sorted).sublist.map key)
  have whole : ((after key cursor sorted).take limit).map key ++ ((after key cursor sorted).drop limit).map key =
      (after key cursor sorted).map key := by
    rw [← List.map_append, List.take_append_drop]
  rw [← whole, List.pairwise_append] at left
  obtain ⟨taken, _, ordered⟩ := left
  have inside : ∀ a ∈ (after key cursor sorted).take limit, a ∈ sorted ∧ Behind cursor (key a) :=
    fun a mem => (memAfter rising).mp (List.mem_of_mem_take mem)
  refine ⟨taken, fun a mem => (same a).mp (inside a mem).1, fun a mem => (inside a mem).2, ?_, ?_⟩
  · intro a mem behind before
    have mem : a ∈ after key cursor sorted := (memAfter rising).mpr ⟨(same a).mpr mem, behind⟩
    rw [← List.take_append_drop limit (after key cursor sorted), List.mem_append] at mem
    rcases mem with mem | rest
    · exact mem
    · have more : (after key cursor sorted).take limit ≠ [] := by
        rw [ne_eq, List.take_eq_nil_iff, not_or]
        exact ⟨Nat.ne_of_gt positive, List.ne_nil_of_mem (List.mem_of_mem_drop rest)⟩
      have last := List.getLast?_eq_some_getLast more
      have named : (cut key limit (after key cursor sorted)).next = _ := cutNext.mpr ⟨List.ne_nil_of_mem rest, _, last, rfl⟩
      exact absurd (ordered _ (List.mem_map_of_mem (List.getLast_mem more)) _ (List.mem_map_of_mem rest)) (before _ named)
  · intro c named
    obtain ⟨_, a, last, rfl⟩ := cutNext.mp named
    exact ⟨⟨a, List.mem_of_getLast? last, rfl⟩, lastGreatest taken last⟩

end Taking

/-! Pages taken one after the other, each of the items there were at its time. -/

def Follows (key : α → κ) : Option κ → List (List α × Page α κ) → Prop
  | _, [] => True
  | cursor, taken :: later => TakenOf key taken.1 cursor taken.2 ∧ (taken.2.next = none → later = []) ∧
      Follows key taken.2.next later

def handed (pages : List (List α × Page α κ)) : List α := pages.flatMap fun taken => taken.2.items

def Finished (pages : List (List α × Page α κ)) : Prop := ∃ last ∈ pages.getLast?, last.2.next = none

section Following
variable {cursor : Option κ} {pages : List (List α × Page α κ)}

/- The cursor only ever moves on. -/
theorem TakenOf.onward {items : List α} {page : Page α κ} (taken : TakenOf key items cursor page) {c : κ}
    (next : page.next = some c) : Behind cursor c := by
  obtain ⟨⟨a, mem, rfl⟩, _⟩ := taken.next c next
  exact taken.behind a mem

/- What is there whenever a page is taken is handed out. -/
theorem Follows.complete (follows : Follows key cursor pages) (finished : Finished pages) {a : α}
    (there : ∀ taken ∈ pages, a ∈ taken.1) (behind : Behind cursor (key a)) : a ∈ handed pages := by
  induction pages generalizing cursor with
  | nil => simp [Finished] at finished
  | cons taken later ih =>
      obtain ⟨first, ends, rest⟩ := follows
      have here := there taken List.mem_cons_self
      rw [handed, List.flatMap_cons, List.mem_append]
      cases next : taken.2.next with
      | none => exact .inl (first.covers a here behind (by simp [next]))
      | some c =>
          by_cases past : c < key a
          · have going : later ≠ [] := by
              intro none
              obtain ⟨last, is, stops⟩ := finished
              rw [none, List.getLast?_singleton, Option.mem_some_iff] at is
              rw [is, stops] at next
              contradiction
            have finished : Finished later := by
              obtain ⟨last, is, stops⟩ := finished
              rw [List.getLast?_cons_of_ne_nil going] at is
              exact ⟨last, is, stops⟩
            refine .inr (ih rest finished (fun taken mem => there taken (List.mem_cons_of_mem _ mem)) ?_)
            simpa [next, Behind] using past
          · refine .inl (first.covers a here behind ?_)
            simpa [next] using past

/- Every page but the last hands something out. -/
theorem Follows.length (follows : Follows key cursor pages) (goesOn : ¬Finished pages) :
    pages.length ≤ (handed pages).length := by
  induction pages generalizing cursor with
  | nil => simp
  | cons taken later ih =>
      obtain ⟨first, ends, rest⟩ := follows
      cases next : taken.2.next with
      | none =>
          refine absurd ⟨taken, ?_, next⟩ goesOn
          simp [ends next]
      | some c =>
          have more : 0 < taken.2.items.length := by
            obtain ⟨⟨a, mem, _⟩, _⟩ := first.next c next
            exact List.length_pos_of_mem mem
          have others : ¬Finished later := by
            rintro ⟨last, is, stops⟩
            refine goesOn ⟨last, ?_, stops⟩
            rw [List.getLast?_cons_of_ne_nil (by rintro rfl; simp at is)]
            exact is
          have later := ih rest others
          simp only [handed, List.flatMap_cons, List.length_append, List.length_cons] at later ⊢
          omega

/- What is handed out rises. -/
section Rising
variable [LE κ] [Std.IsLinearOrder κ] [Std.LawfulOrderLT κ]

theorem Follows.behind (follows : Follows key cursor pages) : ∀ a ∈ handed pages, Behind cursor (key a) := by
  induction pages generalizing cursor with
  | nil => simp [handed]
  | cons taken later ih =>
      obtain ⟨first, ends, rest⟩ := follows
      intro a mem
      simp only [handed, List.flatMap_cons, List.mem_append] at mem
      rcases mem with mem | mem
      · exact first.behind a mem
      · cases next : taken.2.next with
        | none => simp [ends next] at mem
        | some c =>
            rw [next] at rest
            intro c' at_
            exact Std.lt_trans (first.onward next c' at_) (ih rest a mem c rfl)

theorem Follows.rising (follows : Follows key cursor pages) : ((handed pages).map key).Pairwise (· < ·) := by
  induction pages generalizing cursor with
  | nil => simp [handed]
  | cons taken later ih =>
      obtain ⟨first, ends, rest⟩ := follows
      rw [handed, List.flatMap_cons, List.map_append, List.pairwise_append]
      refine ⟨first.rising, ih rest, ?_⟩
      intro _ here _ there
      obtain ⟨a, mem, rfl⟩ := List.mem_map.mp here
      obtain ⟨b, mem', rfl⟩ := List.mem_map.mp there
      cases next : taken.2.next with
      | none => simp [ends next] at mem'
      | some c =>
          have greatest := (first.next c next).2 a mem
          have behind := rest.behind b mem' c next
          exact Std.lt_of_le_of_lt (Std.not_lt.mp greatest) behind

end Rising
end Following
end Paging
