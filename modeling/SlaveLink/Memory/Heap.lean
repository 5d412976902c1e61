import SlaveLink.Crash

/-! # The heap
A heap is the number of bytes that are left of it. It grants every request that it has the bytes
for, unless the request alone is too large. -/

namespace SlaveLink.Heap

/-- The largest number of bytes that one request may ask for. No heap has more. -/
def maxRequest : Nat := 9223372036854775807

/-- Takes memory and tells how much is left. -/
def claim (bytes heap : Nat) : Except Crash Nat :=
  if maxRequest < bytes then .error .capacityOverflow
  else if heap < bytes then .error (.outOfMemory bytes)
  else .ok (heap - bytes)

/-- Takes memory for one request after the other. -/
def claimAll : List Nat → Nat → Except Crash Nat
  | [], heap => .ok heap
  | bytes :: requests, heap =>
    match claim bytes heap with
    | .error why => .error why
    | .ok heap => claimAll requests heap

variable {bytes heap rest : Nat} {requests : List Nat}

theorem claim_eq_ok_iff (hheap : heap ≤ maxRequest) :
    claim bytes heap = .ok rest ↔ heap = bytes + rest := by
  unfold claim
  split
  · simp only [reduceCtorEq, false_iff]
    omega
  · split
    · simp only [reduceCtorEq, false_iff]
      omega
    · rw [Except.ok.injEq]
      omega

/-- The heap grants all requests if and only if it has the bytes for their sum. -/
theorem claimAll_eq_ok_iff (hheap : heap ≤ maxRequest) :
    claimAll requests heap = .ok rest ↔ heap = requests.foldr (· + ·) 0 + rest := by
  induction requests generalizing heap with
  | nil => simp [claimAll]
  | cons bytes requests ih =>
    rw [claimAll, List.foldr_cons]
    cases hclaim : claim bytes heap with
    | error why =>
      have hnone : ∀ left, heap ≠ bytes + left := fun left heq =>
        nomatch hclaim.symm.trans ((claim_eq_ok_iff hheap).mpr heq)
      simp only [reduceCtorEq, false_iff]
      rw [Nat.add_assoc]
      exact hnone _
    | ok left =>
      have hleft := (claim_eq_ok_iff hheap).mp hclaim
      simp only
      rw [ih (by omega)]
      omega

end SlaveLink.Heap
