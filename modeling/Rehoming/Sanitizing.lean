import Rehoming.Brigade

/-! Clearing away what a brigade only knows for the node it leaves. -/

namespace Rehoming

/-- Of a quota only the version stays. -/
def Quota.sanitize (q : Quota) : Quota := { q with usage := .empty }

def User.sanitize (u : User) : User := { u with quota := u.quota.sanitize }

def Brigade.sanitize (b : Brigade) : Brigade :=
  { b with counters := .null, countersStack := .null, endpoints := .null,
           users := b.users.map User.sanitize }

theorem Brigade.sanitize_sanitize (b : Brigade) : b.sanitize.sanitize = b.sanitize := by
  simp [Brigade.sanitize, User.sanitize, Quota.sanitize]

end Rehoming
