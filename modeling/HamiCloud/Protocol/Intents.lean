import HamiCloud.Library.Lease
import HamiCloud.Store.Jobs

/-!
# Execution intents as leases

An intent is a fenced lease: free while it is `PENDING`, held while it is `CLAIMED`, closed once it
is `APPLIED` or `TERMINATED`. A step of either protocol changes an intent only by an operation on this
lease.
-/

namespace HamiCloud

open Library

/-- The columns of an intent that its later steps keep. -/
def ExecutionIntent.spec (i : ExecutionIntent) : Uuid × Uuid × Uuid × Nat × ResourceName × Time :=
  (i.id, i.workspaceId, i.resourceId, i.targetGeneration, i.deterministicResourceName, i.createdAt)

lemma ExecutionIntent.spec_eq {i i' : ExecutionIntent} : i'.spec = i.spec ↔ i'.id = i.id ∧
    i'.workspaceId = i.workspaceId ∧ i'.resourceId = i.resourceId ∧
    i'.targetGeneration = i.targetGeneration ∧
    i'.deterministicResourceName = i.deterministicResourceName ∧ i'.createdAt = i.createdAt := by
  simp [ExecutionIntent.spec]

def IntentStatus.isFinal : IntentStatus → Bool
  | .applied => true
  | .terminated => true
  | _ => false

def IntentStatus.phase : IntentStatus → LeasePhase
  | .pending => .free
  | .claimed => .held
  | .applied => .closed
  | .terminated => .closed

def ExecutionIntent.lease (i : ExecutionIntent) : Lease Time :=
  ⟨i.status.phase, i.leaseEpoch, i.leaseExpiresAt⟩

lemma IntentStatus.isFinal_iff {s : IntentStatus} : s.isFinal = true ↔ s.phase = .closed := by
  cases s <;> simp [isFinal, phase]

lemma ExecutionIntent.expired_of_leaseExpired {i : ExecutionIntent} {now : Time}
    (h : i.leaseExpired now = true) : i.lease.Expired now := by
  unfold ExecutionIntent.leaseExpired at h
  split at h
  · rename_i t ht
    exact ⟨t, ht, by simpa using h⟩
  · cases h

lemma ExecutionIntent.held_of_claimed {i : ExecutionIntent} (h : i.status = .claimed) :
    i.lease.phase = .held := by
  simp [ExecutionIntent.lease, IntentStatus.phase, h]

/-- The same intent after a step whose effect on its lease, if any, is the operation `op`. -/
structure IntentChange (now : Time) (op : Option Lease.Op) (i i' : ExecutionIntent) : Prop where
  spec : i'.spec = i.spec
  lease : i' = i ∨ ∃ o, op = some o ∧ Lease.Step now i.lease o i'.lease

namespace IntentChange

variable {now : Time} {op : Option Lease.Op} {i i' : ExecutionIntent}

lemma refl (i : ExecutionIntent) : IntentChange now op i i := ⟨rfl, .inl rfl⟩

lemma epoch_le (h : IntentChange now op i i') : i.leaseEpoch ≤ i'.leaseEpoch := by
  rcases h.lease with rfl | ⟨o, -, hstep⟩
  · exact le_rfl
  · exact hstep.epoch_le

lemma final (h : IntentChange now op i i') (hf : i.status.isFinal = true) : i' = i := by
  rcases h.lease with he | ⟨o, -, hstep⟩
  · exact he
  · exact absurd (IntentStatus.isFinal_iff.mp hf) hstep.not_closed

end IntentChange

end HamiCloud
