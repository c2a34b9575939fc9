import TradeP2P.Lib.Codec

/-! Append-only logs of framed records: a kind byte, a four-byte length, a body. A scan applies
one record after the other and stops, without failing, at a last record that is cut short. -/
namespace Framing
open Wire (Bytes bigEndian ofBigEndian)

structure Frame where
  kind : UInt8
  body : Bytes
  deriving DecidableEq, Repr

def Frame.encode (f : Frame) : Bytes := f.kind :: (bigEndian 4 f.body.length ++ f.body)

inductive Front where
  | done
  | torn
  | oversize
  | frame (f : Frame) (rest : Bytes)
  deriving DecidableEq, Repr

-- What stands at the front of a log whose bodies have at most `limit` bytes.
def front (limit : Nat) : Bytes → Front
  | [] => .done
  | kind :: rest =>
      if rest.length < 4 then .torn
      else if ofBigEndian (rest.take 4) > limit then .oversize
      else if (rest.drop 4).length < ofBigEndian (rest.take 4) then .torn
      else .frame ⟨kind, (rest.drop 4).take (ofBigEndian (rest.take 4))⟩
        ((rest.drop 4).drop (ofBigEndian (rest.take 4)))

theorem frontDecreases {limit : Nat} {raw rest : Bytes} {f : Frame} (h : front limit raw = .frame f rest) :
    rest.length < raw.length := by
  cases raw with
  | nil => simp [front] at h
  | cons kind tail =>
      simp only [front] at h
      split at h
      · contradiction
      · split at h
        · contradiction
        · split at h
          · contradiction
          · simp only [Front.frame.injEq] at h
            rw [← h.2]
            simp only [List.length_drop, List.length_cons]
            omega

section Scan
variable {σ ε : Type} (limit : Nat) (oversize : ε) (apply : σ → Frame → Except ε σ)

/- The state after the complete records, with the bytes of the torn one. -/
def scan (s : σ) (raw : Bytes) : Except ε (σ × Bytes) :=
  match _found : front limit raw with
  | .done => .ok (s, [])
  | .torn => .ok (s, raw)
  | .oversize => .error oversize
  | .frame f rest => do
      let t ← apply s f
      scan t rest
termination_by raw.length
decreasing_by exact frontDecreases _found

variable {limit oversize apply}

theorem scanDone (s : σ) : scan limit oversize apply s [] = .ok (s, []) := by
  rw [scan]
  rfl

theorem scanTorn {raw : Bytes} (h : front limit raw = .torn) (s : σ) :
    scan limit oversize apply s raw = .ok (s, raw) := by
  rw [scan]
  split <;> simp_all

theorem scanFrame {raw rest : Bytes} {f : Frame} (h : front limit raw = .frame f rest) (s : σ) :
    scan limit oversize apply s raw = apply s f >>= fun t => scan limit oversize apply t rest := by
  rw [scan]
  split <;> simp_all

end Scan

section Encoded
variable {limit : Nat}

@[simp] theorem lengthEncode (f : Frame) : f.encode.length = f.body.length + 5 := by
  simp only [Frame.encode, List.length_cons, List.length_append, Wire.bigEndianLength]
  omega

theorem frontEncode (bound : limit < 256 ^ 4) {f : Frame} (small : f.body.length ≤ limit) (rest : Bytes) :
    front limit (f.encode ++ rest) = .frame f rest := by
  have field : (bigEndian 4 f.body.length ++ (f.body ++ rest)).take 4 = bigEndian 4 f.body.length :=
    List.take_left' (Wire.bigEndianLength ..)
  have after : (bigEndian 4 f.body.length ++ (f.body ++ rest)).drop 4 = f.body ++ rest :=
    List.drop_left' (Wire.bigEndianLength ..)
  have size : ofBigEndian (bigEndian 4 f.body.length) = f.body.length := by
    rw [Wire.ofBigEndian_bigEndian, Nat.mod_eq_of_lt (by omega)]
  simp only [Frame.encode, List.cons_append, List.append_assoc, front, field, after, size,
    List.length_append, Wire.bigEndianLength]
  rw [if_neg (by omega), if_neg (by omega), if_neg (by omega)]
  simp

/- However a record is cut, its front reads as torn. -/
theorem frontCut (bound : limit < 256 ^ 4) {f : Frame} (small : f.body.length ≤ limit) {n : Nat}
    (nonempty : 0 < n) (cut : n < f.encode.length) : front limit (f.encode.take n) = .torn := by
  obtain ⟨m, rfl⟩ := Nat.exists_eq_succ_of_ne_zero (Nat.pos_iff_ne_zero.mp nonempty)
  rw [lengthEncode] at cut
  simp only [Frame.encode, List.take_succ_cons, front]
  by_cases header : m < 4
  · rw [if_pos (by simp only [List.length_take, List.length_append, Wire.bigEndianLength]; omega)]
  · have field : ((bigEndian 4 f.body.length ++ f.body).take m).take 4 = bigEndian 4 f.body.length := by
      rw [List.take_take, Nat.min_eq_left (by omega)]
      exact List.take_left' (Wire.bigEndianLength ..)
    have size : ofBigEndian (bigEndian 4 f.body.length) = f.body.length := by
      rw [Wire.ofBigEndian_bigEndian, Nat.mod_eq_of_lt (by omega)]
    simp only [field, size, List.length_take, List.length_drop, List.length_append, Wire.bigEndianLength]
    rw [if_neg (by omega), if_neg (by omega), if_pos (by omega)]

end Encoded

/-! What was read at the front of a log stands there. -/
section Found
variable {limit : Nat} {raw rest : Bytes}

theorem frontDone (h : front limit raw = .done) : raw = [] := by
  cases raw with
  | nil => rfl
  | cons kind tail =>
      simp only [front] at h
      split_ifs at h

theorem frontFrame {f : Frame} (h : front limit raw = .frame f rest) : raw = f.encode ++ rest := by
  cases raw with
  | nil => simp [front] at h
  | cons kind tail =>
      simp only [front] at h
      split_ifs at h with short _ cut
      obtain ⟨rfl, rfl⟩ := Front.frame.inj h
      have width : (tail.take 4).length = 4 := by
        rw [List.length_take]
        omega
      have field := Wire.bigEndian_ofBigEndian (tail.take 4)
      have size : ((tail.drop 4).take (ofBigEndian (tail.take 4))).length = ofBigEndian (tail.take 4) := by
        rw [List.length_take]
        omega
      rw [width] at field
      rw [Frame.encode, size, field, List.cons_append, List.append_assoc, List.take_append_drop,
        List.take_append_drop]

end Found

/-! The elements of a list that lie wholly within the first `n` units of their total size. -/
section Within
variable {α : Type} (size : α → Nat)

def within : List α → Nat → List α
  | [], _ => []
  | a :: rest, n => if size a ≤ n then a :: within rest (n - size a) else []

theorem withinPrefix (xs : List α) (n : Nat) : within size xs n <+: xs := by
  induction xs generalizing n with
  | nil => exact List.prefix_refl _
  | cons a rest ih =>
      simp only [within]
      split
      · exact (List.prefix_cons_inj a).mpr (ih _)
      · exact List.nil_prefix

end Within

section Logs
variable {α σ ε : Type} {limit : Nat} {oversize : ε} {apply : σ → Frame → Except ε σ} (frame : α → Frame)

def logBytes (records : List α) : Bytes := records.flatMap (fun r => (frame r).encode)

@[simp] theorem logBytes_nil : logBytes frame [] = [] := rfl

@[simp] theorem logBytes_cons (r : α) (rest : List α) :
    logBytes frame (r :: rest) = (frame r).encode ++ logBytes frame rest := by simp [logBytes]

theorem logBytes_append (xs ys : List α) : logBytes frame (xs ++ ys) = logBytes frame xs ++ logBytes frame ys := by
  simp [logBytes]

/- The scan of a log cut after `n` bytes applies exactly the records inside the cut, and what it
leaves over is the rest of the cut. -/
theorem scanCut (bound : limit < 256 ^ 4) {records : List α}
    (small : ∀ r ∈ records, (frame r).body.length ≤ limit) (s : σ) (n : Nat) :
    scan limit oversize apply s ((logBytes frame records).take n) =
      ((within (fun r => (frame r).encode.length) records n).foldlM (fun t r => apply t (frame r)) s).map
        (fun t => (t, ((logBytes frame records).take n).drop
          (logBytes frame (within (fun r => (frame r).encode.length) records n)).length)) := by
  induction records generalizing s n with
  | nil =>
      simp only [logBytes_nil, List.take_nil, within, List.foldlM_nil, List.drop_nil]
      exact scanDone s
  | cons r rest ih =>
      have here := small r (List.mem_cons_self ..)
      have later := ih (fun r mem => small r (List.mem_cons_of_mem _ mem))
      by_cases fits : (frame r).encode.length ≤ n
      · have cut : (logBytes frame (r :: rest)).take n =
            (frame r).encode ++ (logBytes frame rest).take (n - (frame r).encode.length) := by
          rw [logBytes_cons, List.take_append, List.take_of_length_le fits]
        rw [cut, scanFrame (frontEncode bound here _)]
        simp only [within, if_pos fits, List.foldlM_cons, logBytes_cons, List.length_append]
        cases apply s (frame r) with
        | error e => rfl
        | ok t =>
            simp only [bind, Except.bind, ← List.drop_drop, List.drop_left]
            exact later t _
      · have cut : (logBytes frame (r :: rest)).take n = (frame r).encode.take n := by
          rw [logBytes_cons, List.take_append_of_le_length (by omega)]
        rw [cut]
        simp only [within, if_neg fits, List.foldlM_nil, logBytes_nil, List.length_nil, List.drop_zero]
        cases n with
        | zero => exact scanDone s
        | succ n => exact scanTorn (frontCut bound here (Nat.succ_pos n) (by omega)) s

theorem withinAll (records : List α) {n : Nat} (long : (logBytes frame records).length ≤ n) :
    within (fun r => (frame r).encode.length) records n = records := by
  induction records generalizing n with
  | nil => rfl
  | cons r rest ih =>
      simp only [logBytes_cons, List.length_append] at long
      simp only [within, if_pos (show (frame r).encode.length ≤ n by omega)]
      rw [ih (by omega)]

/- A cut inside the last record leaves the ones before it. -/
theorem withinPart (records : List α) {r : α} {n : Nat} (short : n < (frame r).encode.length) :
    within (fun r => (frame r).encode.length) (records ++ [r]) ((logBytes frame records).length + n) = records := by
  induction records with
  | nil =>
      simp only [logBytes_nil, List.length_nil, Nat.zero_add, List.nil_append, within, if_neg (Nat.not_le_of_lt short)]
  | cons a rest ih =>
      have fits : (frame a).encode.length ≤ (logBytes frame (a :: rest)).length + n := by
        rw [logBytes_cons, List.length_append]
        omega
      have less : (logBytes frame (a :: rest)).length + n - (frame a).encode.length = (logBytes frame rest).length + n := by
        rw [logBytes_cons, List.length_append]
        omega
      rw [List.cons_append, within, if_pos fits, less, ih]

theorem withinBytes (records : List α) (n : Nat) :
    logBytes frame (within (fun r => (frame r).encode.length) records n) <+: (logBytes frame records).take n := by
  induction records generalizing n with
  | nil => simp [within]
  | cons r rest ih =>
      simp only [within]
      split
      · next fits =>
          simp only [logBytes_cons, List.take_append, List.take_of_length_le fits]
          exact (List.prefix_append_right_inj _).mpr (ih _)
      · exact List.nil_prefix

/- A scan that comes through has read a log: the bytes of some frames, and a torn one behind them. -/
theorem scanOk {s t : σ} {raw torn : Bytes} (ok : scan limit oversize apply s raw = .ok (t, torn)) :
    ∃ frames : List Frame, raw = logBytes id frames ++ torn ∧ frames.foldlM apply s = .ok t := by
  induction size : raw.length using Nat.strong_induction_on generalizing raw s with
  | _ n ih =>
      rw [scan] at ok
      split at ok
      · next found =>
          obtain ⟨rfl, rfl⟩ := Prod.mk.inj (Except.ok.inj ok)
          exact ⟨[], frontDone found, rfl⟩
      · obtain ⟨rfl, rfl⟩ := Prod.mk.inj (Except.ok.inj ok)
        exact ⟨[], rfl, rfl⟩
      · contradiction
      · next f rest found =>
          obtain ⟨u, applied, later⟩ := Checks.bind_ok.mp ok
          obtain ⟨frames, whole, run⟩ := ih rest.length (size ▸ frontDecreases found) later rfl
          refine ⟨f :: frames, ?_, ?_⟩
          · rw [frontFrame found, logBytes_cons, List.append_assoc, ← whole]
            rfl
          · rw [List.foldlM_cons, applied]
            exact run

end Logs
end Framing
