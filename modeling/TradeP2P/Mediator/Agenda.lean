import Mathlib.Data.List.Nodup

/-! What a settlement is for, apart from how the session computes it. A trade of `rounds`
rounds has `2 * rounds` legs; leg `2 * r + l` is the `l`-th tranche of round `r`. Between
legs stand the duties: the receipt gate before the final tranche and the mediator's fee
where the operator placed it. The agenda lists the whole trade in order. -/
namespace TradeP2P

inductive Task where
  | join
  | send (leg : Nat)
  | receive (leg : Nat)
  | payFee
  | confirmFee
  | acknowledge
  | countersign
  deriving DecidableEq, Repr

structure Plan where
  rounds : Nat
  feeLeg : Option Nat
  feeLast : Bool
  confirm : Bool
  deriving DecidableEq, Repr

namespace Plan

def legs (p : Plan) : Nat := 2 * p.rounds

/- The leg the receipt gate stands before. The fee counts as leg `legs` when it comes last. -/
def gateLeg (p : Plan) : Nat := if p.feeLast then p.legs else p.legs - 1

def settleFee (p : Plan) : List Task := .payFee :: (if p.confirm then [.confirmFee] else [])

def gateDuty (p : Plan) (k : Nat) : List Task := if k = p.gateLeg then [.acknowledge, .countersign] else []
def feeDuty (p : Plan) (k : Nat) : List Task := if p.feeLeg = some k then p.settleFee else []
def duties (p : Plan) (k : Nat) : List Task := p.gateDuty k ++ p.feeDuty k

/- From leg `k` on, its own duties done, with `m` legs to go. -/
def onward (p : Plan) : Nat → Nat → List Task
  | _, 0 => []
  | k, m + 1 => .send k :: .receive k :: (p.duties (k + 1) ++ p.onward (k + 1) m)

def after (p : Plan) (k : Nat) : List Task := p.onward k (p.legs - k)

def agenda (p : Plan) : List Task := .join :: (p.duties 0 ++ p.after 0)

/- The fee stands before the first leg of a round, or after the last leg when it comes last.
The receipt gate never stands at the very beginning. -/
structure Sound (p : Plan) : Prop where
  rounds : 0 < p.rounds
  last : p.feeLast = true → p.feeLeg = some p.legs
  early : ∀ k, p.feeLast = false → p.feeLeg = some k → k < p.legs
  even : ∀ k, p.feeLeg = some k → k % 2 = 0

section Shape
variable {p : Plan}

theorem afterAll {k : Nat} (done : p.legs ≤ k) : p.after k = [] := by
  have none : p.legs - k = 0 := by omega
  simp [after, none, onward]

theorem afterNext {k : Nat} (more : k < p.legs) :
    p.after k = .send k :: .receive k :: (p.duties (k + 1) ++ p.after (k + 1)) := by
  have one : p.legs - k = (p.legs - (k + 1)) + 1 := by omega
  simp only [after, one, onward]

/- Going on from leg `k`, the rule by which every fact about what is ahead is proved. -/
theorem afterInduct {P : Nat → Prop} (done : ∀ k, p.legs ≤ k → P k)
    (next : ∀ k, k < p.legs → P (k + 1) → P k) (k : Nat) : P k := by
  by_cases more : k < p.legs
  · exact next k more (afterInduct done next (k + 1))
  · exact done k (Nat.le_of_not_lt more)
termination_by p.legs - k

end Shape

section Counts
variable {p : Plan}

theorem countSettleFee {x : Task} : p.settleFee.count x =
    if x = .payFee then 1 else if x = .confirmFee ∧ p.confirm = true then 1 else 0 := by
  cases x <;> cases confirm : p.confirm <;> simp [settleFee, confirm]

theorem countDuties {x : Task} {k : Nat} : (p.duties k).count x =
    (if k = p.gateLeg ∧ (x = .acknowledge ∨ x = .countersign) then 1 else 0) +
    (if p.feeLeg = some k then p.settleFee.count x else 0) := by
  simp only [duties, gateDuty, feeDuty, List.count_append]
  congr 1
  · by_cases gate : k = p.gateLeg <;> cases x <;> simp [gate]
  · split <;> rfl

/- A tranche stands ahead once from its own leg back, and never past it. -/
theorem countTranche {x : Task} {j k : Nat} (tranche : x = .send j ∨ x = .receive j) :
    (p.after k).count x = if k ≤ j ∧ j < p.legs then 1 else 0 := by
  have free (k : Nat) : (p.duties k).count x = 0 := by
    rcases tranche with rfl | rfl <;> simp [countDuties, countSettleFee]
  induction k using afterInduct (p := p) with
  | done k all =>
      have past : ¬(k ≤ j ∧ j < p.legs) := by omega
      simp [afterAll all, past]
  | next k more ih =>
      simp only [afterNext more, List.count_cons, List.count_append, free, ih]
      rcases tranche with rfl | rfl <;> simp <;> split_ifs <;> omega

theorem Sound.feeBound (sound : p.Sound) {f : Nat} (fee : p.feeLeg = some f) : f ≤ p.legs := by
  cases last : p.feeLast with
  | true =>
      have same := sound.last last
      simp only [fee, Option.some.injEq] at same
      omega
  | false => exact Nat.le_of_lt (sound.early f last fee)

theorem Sound.gateBound (sound : p.Sound) : 0 < p.gateLeg ∧ p.gateLeg ≤ p.legs := by
  have positive := sound.rounds
  simp only [gateLeg, legs]
  split <;> omega

/- The other tasks stand ahead as long as the leg they are due at does. -/
theorem countDuty (sound : p.Sound) {x : Task} {k : Nat} (duty : ∀ j, x ≠ .send j ∧ x ≠ .receive j) :
    (p.after k).count x =
      (if k < p.gateLeg ∧ (x = .acknowledge ∨ x = .countersign) then 1 else 0) +
      (if ∃ f, p.feeLeg = some f ∧ k < f then p.settleFee.count x else 0) := by
  induction k using afterInduct (p := p) with
  | done k all =>
      have gate : ¬k < p.gateLeg := by have := sound.gateBound; omega
      have fee : ¬∃ f, p.feeLeg = some f ∧ k < f := by
        rintro ⟨f, leg, past⟩
        have := sound.feeBound leg
        omega
      simp [afterAll all, gate, fee]
  | next k more ih =>
      simp only [afterNext more, List.count_cons_of_ne (duty k).1.symm, List.count_cons_of_ne (duty k).2.symm,
        List.count_append, ih, countDuties]
      have gate : k < p.gateLeg ↔ k + 1 = p.gateLeg ∨ k + 1 < p.gateLeg := by omega
      have fee : (∃ f, p.feeLeg = some f ∧ k < f) ↔
          p.feeLeg = some (k + 1) ∨ ∃ f, p.feeLeg = some f ∧ k + 1 < f := by
        constructor
        · rintro ⟨f, leg, past⟩
          rcases Nat.eq_or_lt_of_le (Nat.succ_le_of_lt past) with rfl | later
          · exact .inl leg
          · exact .inr ⟨f, leg, later⟩
        · rintro (leg | ⟨f, leg, past⟩)
          · exact ⟨k + 1, leg, by omega⟩
          · exact ⟨f, leg, by omega⟩
      have once : ¬(p.feeLeg = some (k + 1) ∧ ∃ f, p.feeLeg = some f ∧ k + 1 < f) := by
        rintro ⟨here, f, leg, past⟩
        rw [here, Option.some.injEq] at leg
        omega
      simp only [fee, gate]
      split_ifs <;> first | omega | (exfalso; grind)

theorem countFee (sound : p.Sound) {k : Nat} :
    (p.after k).count .payFee = if ∃ f, p.feeLeg = some f ∧ k < f then 1 else 0 := by
  rw [countDuty sound (by simp)]
  simp [countSettleFee]

theorem Sound.confirmAsked (sound : p.Sound) (mem : .confirmFee ∈ p.agenda) : p.confirm = true := by
  by_contra trusts
  have absent : p.agenda.count .confirmFee = 0 := by
    simp [agenda, List.count_append, countDuty sound, countDuties, countSettleFee, trusts]
  exact List.count_eq_zero.mp absent mem

/- No task stands twice on the agenda. -/
theorem Sound.nodup (sound : p.Sound) : p.agenda.Nodup := by
  refine List.nodup_iff_count_le_one.mpr fun x => ?_
  have gate := sound.gateBound
  have first : (0 : Nat) ≠ p.gateLeg := by omega
  by_cases tranche : ∃ j, x = .send j ∨ x = .receive j
  · obtain ⟨j, tranche⟩ := tranche
    have apart : x ≠ .join ∧ x ≠ .payFee ∧ x ≠ .confirmFee := by rcases tranche with rfl | rfl <;> simp
    simp only [agenda, List.count_cons_of_ne apart.1.symm, List.count_append, countTranche tranche, countDuties,
      countSettleFee, first, apart]
    simp
    split <;> simp
  · have duty : ∀ j, x ≠ .send j ∧ x ≠ .receive j := by grind
    simp only [agenda, List.count_cons, List.count_append, countDuty sound duty, countDuties, first]
    have once : p.settleFee.count x ≤ 1 := by rw [countSettleFee]; split <;> [omega; split <;> omega]
    cases x <;> simp_all [countSettleFee] <;> split_ifs <;> grind

end Counts

/- What only the tranches, or only the fee, contribute to a list read off the agenda. -/
section Reading
variable {p : Plan} {β : Type} {g : Task → Option β}

theorem readDuties (tranches : ∀ x, (∀ j, x ≠ .send j) → g x = none) (k : Nat) :
    (p.duties k).filterMap g = [] := by
  refine List.filterMap_eq_nil_iff.mpr fun x mem => tranches x ?_
  rintro j rfl
  have absent : (p.duties k).count (.send j) = 0 := by simp [countDuties, countSettleFee]
  exact List.count_eq_zero.mp absent mem

theorem readAfter (tranches : ∀ x, (∀ j, x ≠ .send j) → g x = none) (k : Nat) :
    (p.after k).filterMap g = (List.range' k (p.legs - k)).filterMap (fun k => g (.send k)) := by
  induction k using afterInduct (p := p) with
  | done k all =>
      have none : p.legs - k = 0 := by omega
      simp [afterAll all, none]
  | next k more ih =>
      have one : p.legs - k = (p.legs - (k + 1)) + 1 := by omega
      rw [afterNext more, one, List.range'_succ]
      simp only [List.filterMap_cons, List.filterMap_append, tranches (.receive k) (by simp),
        readDuties tranches, ih, List.nil_append]

theorem readTranches (tranches : ∀ x, (∀ j, x ≠ .send j) → g x = none) :
    p.agenda.filterMap g = (List.range p.legs).filterMap (fun k => g (.send k)) := by
  simp only [agenda, List.filterMap_cons, List.filterMap_append, tranches .join (by simp),
    readDuties tranches, readAfter tranches, List.nil_append, Nat.sub_zero, List.range_eq_range']

theorem countFeeOnAgenda (sound : p.Sound) : p.agenda.count .payFee = if p.feeLeg.isSome then 1 else 0 := by
  have gate := sound.gateBound
  simp only [agenda, List.count_cons, List.count_append, countFee sound, countDuties, countSettleFee]
  cases fee : p.feeLeg with
  | none => simp
  | some f =>
      rcases Nat.eq_zero_or_pos f with rfl | later
      · simp
      · have here : f ≠ 0 := by omega
        simp [later, here]

theorem feeTasksOnAgenda (sound : p.Sound) {f : Nat} (fee : p.feeLeg = some f) {x : Task} (mem : x ∈ p.settleFee) :
    x ∈ p.agenda := by
  have counted : 0 < p.settleFee.count x := List.count_pos_iff.mpr mem
  rcases Nat.eq_zero_or_pos f with rfl | later
  · have here : x ∈ p.duties 0 := by simp [duties, feeDuty, fee, mem]
    simp [agenda, here]
  · have duty : ∀ j, x ≠ .send j ∧ x ≠ .receive j := by
      intro j
      unfold settleFee at mem
      split at mem <;> simp at mem <;> rcases mem with rfl | rfl <;> simp
    have ahead : x ∈ p.after 0 := by
      have due : ∃ f, p.feeLeg = some f ∧ 0 < f := ⟨f, fee, later⟩
      rw [← List.count_pos_iff, countDuty sound duty, if_pos due]
      omega
    simp [agenda, ahead]

theorem readFees (fees : ∀ x, x ≠ .payFee → g x = none) (tasks : List Task) :
    tasks.filterMap g = (List.replicate (tasks.count .payFee) (g .payFee)).filterMap id := by
  induction tasks with
  | nil => rfl
  | cons x rest ih =>
      by_cases fee : x = .payFee
      · subst fee
        simp only [List.filterMap_cons, List.count_cons_self, List.replicate_succ, ih, id]
      · rw [List.filterMap_cons, fees x fee, List.count_cons_of_ne fee]
        exact ih

theorem readFee (sound : p.Sound) (fees : ∀ x, x ≠ .payFee → g x = none) :
    p.agenda.filterMap g = if p.feeLeg.isSome then (g .payFee).toList else [] := by
  rw [readFees fees, countFeeOnAgenda sound]
  cases p.feeLeg <;> cases g .payFee <;> rfl

end Reading

/- A trade of `rounds` rounds takes at most `4 * rounds + 5` tasks. -/
section Length
variable {p : Plan}

theorem feeDutyShort (k : Nat) : (p.feeDuty k).length ≤ if p.feeLeg = some k then 2 else 0 := by
  unfold feeDuty
  split
  · cases confirm : p.confirm <;> simp [settleFee, confirm]
  · simp

theorem lengthAfter (k : Nat) : (p.after k).length ≤ 2 * (p.legs - k) +
    (if k < p.gateLeg then 2 else 0) + (if ∃ f, p.feeLeg = some f ∧ k < f then 2 else 0) := by
  induction k using afterInduct (p := p) with
  | done k all => simp [afterAll all]
  | next k more ih =>
      have one : p.legs - k = (p.legs - (k + 1)) + 1 := by omega
      have gate : (p.gateDuty (k + 1)).length = if k + 1 = p.gateLeg then 2 else 0 := by
        unfold gateDuty
        split <;> rfl
      have fee := feeDutyShort (p := p) (k + 1)
      have gates : (if k + 1 = p.gateLeg then 2 else 0) + (if k + 1 < p.gateLeg then 2 else 0) =
          if k < p.gateLeg then 2 else 0 := by split_ifs <;> omega
      have fees : (if p.feeLeg = some (k + 1) then 2 else 0) +
          (if ∃ f, p.feeLeg = some f ∧ k + 1 < f then 2 else 0) ≤
          if ∃ f, p.feeLeg = some f ∧ k < f then 2 else 0 := by
        cases leg : p.feeLeg with
        | none => simp
        | some f => simp only [Option.some.injEq, exists_eq_left']; split_ifs <;> omega
      simp only [afterNext more, List.length_cons, List.length_append, duties, gate]
      omega

theorem Sound.lengthAgenda (sound : p.Sound) : p.agenda.length ≤ 4 * p.rounds + 5 := by
  have ahead := lengthAfter (p := p) 0
  have fee := feeDutyShort (p := p) 0
  have gate : p.gateDuty 0 = [] := by
    have first : (0 : Nat) ≠ p.gateLeg := by have := sound.gateBound; omega
    simp [gateDuty, first]
  have fees : (if p.feeLeg = some 0 then 2 else 0) + (if ∃ f, p.feeLeg = some f ∧ 0 < f then 2 else 0) ≤ 2 := by
    cases leg : p.feeLeg with
    | none => simp
    | some f => simp only [Option.some.injEq, exists_eq_left']; split_ifs <;> omega
  have gates : (if 0 < p.gateLeg then 2 else 0) ≤ 2 := by split <;> omega
  simp only [agenda, duties, gate, List.length_cons, List.length_append, List.length_nil, legs] at *
  omega

end Length

/- How the agenda ends: the receipt of the leg before the gate, the gate, the final tranche. -/
section Close
variable {p : Plan}

def closing (p : Plan) : List Task :=
  if p.feeLast then p.settleFee else [.send (p.legs - 1), .receive (p.legs - 1)]

theorem Sound.fromGate (sound : p.Sound) : p.feeDuty p.gateLeg ++ p.after p.gateLeg = p.closing := by
  have positive := sound.rounds
  cases last : p.feeLast with
  | true =>
      have gate : p.gateLeg = p.legs := by simp [gateLeg, last]
      simp [gate, feeDuty, sound.last last, afterAll, closing, last]
  | false =>
      have gate : p.gateLeg = p.legs - 1 := by simp [gateLeg, last]
      have more : p.legs - 1 < p.legs := by simp only [legs]; omega
      have next : p.legs - 1 + 1 = p.legs := by omega
      have odd : p.feeLeg ≠ some (p.legs - 1) := by
        intro fee
        have even := sound.even _ fee
        simp only [legs] at even
        omega
      have early : p.feeLeg ≠ some p.legs := fun fee => by
        have := sound.early _ last fee
        omega
      have past : p.legs ≠ p.legs - 1 := by omega
      simp [gate, feeDuty, odd, afterNext more, next, afterAll, duties, gateDuty, early, past, closing, last]

theorem Sound.ending (sound : p.Sound) {k : Nat} (before : k < p.gateLeg) :
    ∃ xs, p.after k = xs ++ [.receive (p.gateLeg - 1), .acknowledge, .countersign] ++ p.closing := by
  have bound := sound.gateBound
  induction k using afterInduct (p := p) with
  | done k all => omega
  | next k more ih =>
      rcases Nat.eq_or_lt_of_le (Nat.succ_le_of_lt before) with here | later
      · have here : k + 1 = p.gateLeg := here
        refine ⟨[.send k], ?_⟩
        have whole := sound.fromGate
        have last : p.gateLeg - 1 = k := by omega
        simp only [afterNext more, here, duties, gateDuty, ← whole, last, if_pos]
        simp
      · obtain ⟨xs, tail⟩ := ih later
        exact ⟨.send k :: .receive k :: (p.duties (k + 1) ++ xs), by simp [afterNext more, tail]⟩

theorem Sound.agendaEnds (sound : p.Sound) :
    ∃ xs, p.agenda = xs ++ [.receive (p.gateLeg - 1), .acknowledge, .countersign] ++ p.closing := by
  obtain ⟨xs, tail⟩ := sound.ending sound.gateBound.1
  exact ⟨.join :: (p.duties 0 ++ xs), by simp [agenda, tail]⟩

end Close
end Plan
end TradeP2P
