import Famp.Data.Limiter
import Famp.Gateway.Guard
import Famp.Relay.Once

/-!
# The two rate limiters

The gateway limits the requests of a sender name, the relay the fetches of a
domain.  The two are written differently and are the same limiter, so that every
run of either is bounded in every interval.
-/

set_option autoImplicit false

namespace Famp.Gateway

open Std Data Data.FixedWindow Relay

theorem isOk_ite {ε : Type} (verdict : Bool) (fault : ε) :
    (if verdict then Except.ok () else .error fault : Except ε Unit).isOk = verdict := by
  cases verdict <;> rfl

def RateLimiter.allows (buckets : RateLimiter) (sender : String) (now : Int) : Bool × RateLimiter :=
  let admitted := buckets.admitCall sender now
  (admitted.1.isOk, admitted.2)

theorem rateLimiter_limits :
    Limits rateLimitMaxPerWindow rateLimitWindowSecs (fun (buckets : RateLimiter) sender => buckets[sender]?)
      RateLimiter.allows :=
  .of_map id fun buckets sender now => by
    rw [RateLimiter.allows, RateLimiter.admitCall_eq ⟨∅, buckets⟩]
    exact ⟨isOk_ite _ _, rfl⟩

def fetchAllowed (state : FetchAuthState) (domain : String) (now : Int) : Bool × FetchAuthState :=
  let admitted := state.admitCall domain now
  (admitted.1.isOk, admitted.2)

theorem fetchAuthState_limits :
    Limits fetchRateMaxPerWindow fetchRateWindowSecs
      (fun (state : FetchAuthState) domain => state.buckets[domain]?) fetchAllowed :=
  .of_map FetchAuthState.buckets fun state domain now => by
    rw [fetchAllowed, FetchAuthState.admitCall_eq]
    exact ⟨isOk_ite _ _, rfl⟩

theorem limiters_bound_every_interval {calls : List (String × Int)}
    (ordered : calls.Pairwise fun first second => first.2 ≤ second.2) (key : String) :
    Bounds rateLimitMaxPerWindow rateLimitWindowSecs (answers RateLimiter.allows ∅) calls key ∧
      Bounds fetchRateMaxPerWindow fetchRateWindowSecs (answers fetchAllowed .new) calls key :=
  ⟨rateLimiter_limits.bounds (by decide) (fun _ => ExtTreeMap.getElem?_empty) ordered key,
    fetchAuthState_limits.bounds (by decide) (fun _ => ExtTreeMap.getElem?_empty) ordered key⟩

/-- Two requests in one window, one of them near its end, and a full window after it. -/
def burst : List (String × Int) :=
  [("bob", 0), ("bob", 59 * second)] ++ List.replicate 120 ("bob", 60 * second) ++
    [("bob", 61 * second)]

theorem limiters_bound_burst :
    Bounds rateLimitMaxPerWindow rateLimitWindowSecs (answers RateLimiter.allows ∅) burst "bob" ∧
      Bounds fetchRateMaxPerWindow fetchRateWindowSecs (answers fetchAllowed .new) burst "bob" :=
  limiters_bound_every_interval (by decide +kernel) "bob"

/-- The last request of the burst is refused, with one more than the maximum admitted in
the minute before it. -/
theorem refused_after_more_than_max :
    (answers RateLimiter.allows ∅ burst).getLast? = some ("bob", 61 * second, false) ∧
      countIn (1 * second) (61 * second) (admittedOf "bob" (answers RateLimiter.allows ∅ burst)) = 121 ∧
      (answers fetchAllowed .new burst).getLast? = some ("bob", 61 * second, false) ∧
      countIn (1 * second) (61 * second)
        (admittedOf "bob" (answers fetchAllowed .new burst)) = 121 := by
  decide +kernel

end Famp.Gateway
