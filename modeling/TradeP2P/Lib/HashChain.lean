import Mathlib.Data.Set.Function

/-! Hash chains. Every link carries its own digest and names the digest of the link before it, so two
chains that end in the same digest are the same chain as far back as both go. -/
namespace HashChain

variable {α Digest Content : Type} (digest previous : α → Digest)

def Linked (links : List α) : Prop :=
  ∀ i a b, links[i]? = some a → links[i + 1]? = some b → previous b = digest a

variable {digest previous} {xs ys : List α}

theorem linkedSnoc {b : α} (linked : Linked digest previous xs)
    (follows : ∀ a, xs.getLast? = some a → previous b = digest a) : Linked digest previous (xs ++ [b]) := by
  intro i a c here next
  have bound := (List.getElem?_eq_some_iff.mp next).1
  rw [List.length_append, List.length_singleton] at bound
  rw [List.getElem?_append_left (by omega)] at here
  rcases Nat.lt_or_ge (i + 1) xs.length with inside | last
  · rw [List.getElem?_append_left inside] at next
    exact linked i a c here next
  · have size : xs.length = i + 1 := by omega
    rw [← size, List.getElem?_concat_length] at next
    obtain rfl := Option.some.inj next
    apply follows
    rw [List.getLast?_eq_getElem?, size]
    exact here

/- The digests say which link it is, for links of the two chains. -/
def Told (digest : α → Digest) (xs ys : List α) : Prop := ∀ a ∈ xs, ∀ b ∈ ys, digest a = digest b → a = b

/- Where each digest is the hash of a content, and no two contents of the chains collide, they do. -/
theorem toldHashes {hash : Content → Digest} {content : α → Content}
    (sealedX : ∀ a ∈ xs, hash (content a) = digest a) (sealedY : ∀ b ∈ ys, hash (content b) = digest b)
    (collisionFree : Set.InjOn hash {c | ∃ a, (a ∈ xs ∨ a ∈ ys) ∧ content a = c})
    (determines : ∀ a ∈ xs, ∀ b ∈ ys, content a = content b → digest a = digest b → a = b) : Told digest xs ys := by
  intro a inX b inY same
  have hashes : hash (content a) = hash (content b) := by rw [sealedX a inX, sealedY b inY, same]
  exact determines a inX b inY (collisionFree ⟨a, .inl inX, rfl⟩ ⟨b, .inr inY, rfl⟩ hashes) same

/- From a common digest back. -/
theorem samePrefix (linkedX : Linked digest previous xs) (linkedY : Linked digest previous ys)
    (told : Told digest xs ys) {n : Nat} {a b : α} (x : xs[n]? = some a) (y : ys[n]? = some b)
    (same : digest a = digest b) : xs.take (n + 1) = ys.take (n + 1) := by
  obtain rfl := told a (List.mem_of_getElem? x) b (List.mem_of_getElem? y) same
  induction n generalizing a with
  | zero => rw [List.take_add_one, List.take_add_one, x, y, List.take_zero, List.take_zero]
  | succ n ih =>
      have boundX := (List.getElem?_eq_some_iff.mp x).1
      have boundY := (List.getElem?_eq_some_iff.mp y).1
      have beforeX : xs[n]? = some xs[n] := List.getElem?_eq_getElem _
      have beforeY : ys[n]? = some ys[n] := List.getElem?_eq_getElem _
      have digests : digest xs[n] = digest ys[n] := by
        rw [← linkedX n _ _ beforeX x, ← linkedY n _ _ beforeY y]
      have link := told _ (List.mem_of_getElem? beforeX) _ (List.mem_of_getElem? beforeY) digests
      have front := ih beforeX (link ▸ beforeY) rfl
      rw [List.take_add_one, List.take_add_one (l := ys), front, x, y]

end HashChain
