import Famp.Keyring.Reload

/-!
# Rotating to a key and reading it back

A rotated keyring that is saved and loaded again has the new key active exactly when
the keyring could take the key: no entry has it but the active one of its principal,
and a change of the active key was confirmed.
-/

set_option autoImplicit false

namespace Famp.Keyring

open Std Famp.Core Data

variable {principal other : ParsedPrincipal} {now : String}

section Pinning
variable {Key : Type} [DecidableEq Key] {crypto : KeyCrypto Key}

/-! ## The active key -/

/-- An active entry that is not over at this time. -/
structure Live (entry : KeyEntry Key) (now : String) : Prop where
  active : entry.isActive = true
  lasting : ∀ validUntil, entry.validUntil = some validUntil → now < validUntil

variable {keyring : Keyring Key} {key : Key} {entry : KeyEntry Key}

omit [DecidableEq Key] in
theorem find?_isActive_eq (healthy : Healthy keyring) (member : entry ∈ entries keyring principal)
    (active : entry.isActive = true) :
    (entries keyring principal).find? KeyEntry.isActive = some entry := by
  have alone := healthy.oneActive principal
  generalize entries keyring principal = list at member alone
  induction list with
  | nil => cases member
  | cons first rest ih =>
    obtain ⟨apart, later⟩ := List.pairwise_cons.mp alone
    rcases List.mem_cons.mp member with rfl | inside
    · rw [List.find?_cons_of_pos active]
    · have inactive : ¬first.isActive = true := fun active' => apart entry inside ⟨active', active⟩
      rw [List.find?_cons_of_neg inactive]
      exact ih inside later

omit [DecidableEq Key] in
theorem activeKey_eq_active_iff (healthy : Healthy keyring) :
    activeKey keyring principal now = .active key ↔
      isCanonicalUtc now = true ∧
        ∃ entry ∈ entries keyring principal, Live entry now ∧ entry.key = key := by
  simp only [activeKey]
  cases canonical : isCanonicalUtc now with
  | false => simp
  | true =>
    simp only [Bool.not_true, Bool.false_eq_true, if_false, true_and]
    constructor
    · intro found
      split at found
      next active first =>
        refine ⟨active, List.mem_of_find?_eq_some first, ⟨List.find?_some first, ?_⟩, ?_⟩
        · intro validUntil until'
          rw [until'] at found
          by_contra late
          simp [String.not_lt.mp late] at found
        · split at found
          · split at found
            · cases found
            · exact KeyLookupOutcome.active.inj found
          · exact KeyLookupOutcome.active.inj found
      next =>
        split at found
        · cases found
        · split at found <;> cases found
    · rintro ⟨entry, member, live, rfl⟩
      rw [find?_isActive_eq healthy member live.active]
      simp only
      split
      next validUntil until' =>
        rw [if_neg (String.not_le.mpr (live.lasting validUntil until'))]
      next => rfl

omit [DecidableEq Key] in
theorem activeKey_congr {other : Keyring Key} (healthy : Healthy keyring) (healthy' : Healthy other)
    (same : (entries keyring principal).Perm (entries other principal)) :
    activeKey keyring principal now = .active key ↔ activeKey other principal now = .active key := by
  rw [activeKey_eq_active_iff healthy, activeKey_eq_active_iff healthy']
  simp only [same.mem_iff]

/-! ## Rotations -/

/-- The entry that a rotation without an end adds. -/
def pinnedEntry (key : Key) (now : String) : KeyEntry Key := ⟨key, .active, none, some now, none⟩

omit [DecidableEq Key] in
theorem live_pinnedEntry (key : Key) (now : String) : Live (pinnedEntry key now) now :=
  ⟨rfl, fun _ until' => by cases until'⟩

/-- What an accepted rotation found and what it made. -/
inductive Rotated (keyring : Keyring Key) (principal : ParsedPrincipal) (key : Key) (now : String)
    (confirmed : Bool) : Keyring Key → Prop where
  | first : (entries keyring principal).find? KeyEntry.isActive = none →
      Rotated keyring principal key now confirmed
        (keyring.insert principal (entries keyring principal ++ [pinnedEntry key now]))
  | already {old : KeyEntry Key} : (entries keyring principal).find? KeyEntry.isActive = some old →
      old.key = key → Rotated keyring principal key now confirmed keyring
  | changed {old : KeyEntry Key} : (entries keyring principal).find? KeyEntry.isActive = some old →
      old.key ≠ key → confirmed = true →
      Rotated keyring principal key now confirmed
        (keyring.insert principal
          (modifyFirst KeyEntry.isActive (·.inState .retired now) (entries keyring principal) ++
            [pinnedEntry key now]))

theorem rotateTo_ok_iff {rotated : Keyring Key} {confirmed : Bool} :
    (∃ outcome, rotateTo crypto keyring principal key now none confirmed = .ok (outcome, rotated)) ↔
      isCanonicalUtc now = true ∧ isRevokedIn (entries keyring principal) key = false ∧
        Rotated keyring principal key now confirmed rotated := by
  constructor
  · rintro ⟨outcome, done⟩
    simp only [rotateTo] at done
    split at done
    next => cases done
    next checked =>
      obtain ⟨canonical, -⟩ := checkTimestamps_ok_iff.mp checked
      split at done
      next => cases done
      next unrevoked =>
        refine ⟨canonical, by simpa using unrevoked, ?_⟩
        split at done
        next unfound =>
          obtain ⟨-, rfl⟩ := Prod.mk.inj (Except.ok.inj done)
          exact .first unfound
        next old found =>
          split at done
          next same =>
            obtain ⟨-, rfl⟩ := Prod.mk.inj (Except.ok.inj done)
            exact .already found same
          next different =>
            split at done
            next => cases done
            next sure =>
              obtain ⟨-, rfl⟩ := Prod.mk.inj (Except.ok.inj done)
              exact .changed found different (by simpa using sure)
  · rintro ⟨canonical, unrevoked, rotation⟩
    have checked : checkTimestamps now none = .ok () := checkTimestamps_ok_iff.mpr ⟨canonical, rfl⟩
    simp only [rotateTo, checked, unrevoked, Bool.false_eq_true, if_false]
    cases rotation with
    | first unfound =>
      rw [unfound]
      exact ⟨_, rfl⟩
    | already found same =>
      simp only [found, same, if_true]
      exact ⟨_, rfl⟩
    | changed found different sure =>
      simp only [found, different, sure, if_false, Bool.not_true, Bool.false_eq_true]
      exact ⟨_, rfl⟩

/-- The keyring can take the key: no entry has it but a live one of the principal, and
another active key of the principal gives way only with a confirmation. -/
structure Takes (keyring : Keyring Key) (principal : ParsedPrincipal) (key : Key) (now : String)
    (confirmed : Bool) : Prop where
  canonical : isCanonicalUtc now = true
  unused : ∀ other, ∀ entry ∈ entries keyring other, entry.key = key → other = principal ∧ Live entry now
  sure : ∀ entry ∈ entries keyring principal, entry.isActive = true → entry.key ≠ key → confirmed = true

omit [DecidableEq Key] in
theorem Distinct.entry_eq (distinct : Distinct keyring) {a b : KeyEntry Key}
    (first : a ∈ entries keyring principal) (second : b ∈ entries keyring other)
    (same : a.key = b.key) : principal = other ∧ a = b := by
  have here : principal = other := by
    by_contra different
    exact distinct.across principal other different (List.mem_map_of_mem first)
      (same ▸ List.mem_map_of_mem second)
  subst here
  exact ⟨rfl, List.inj_on_of_nodup_map (distinct.within principal) first second same⟩

theorem unrevoked_of_active (distinct : Distinct keyring)
    (member : entry ∈ entries keyring principal) (active : entry.isActive = true)
    (same : entry.key = key) : isRevokedIn (entries keyring principal) key = false := by
  rw [isRevokedIn, List.any_eq_false]
  intro other member' revoked
  simp only [Bool.and_eq_true, beq_iff_eq] at revoked
  obtain ⟨-, rfl⟩ := distinct.entry_eq member member' (same.trans revoked.2.symm)
  simp [KeyEntry.isActive, revoked.1] at active

namespace Rotated

variable {keyring rotated : Keyring Key} {principal : ParsedPrincipal} {key : Key} {now : String}
  {confirmed : Bool}

omit [DecidableEq Key] in
theorem elsewhere (rotation : Rotated keyring principal key now confirmed rotated)
    (different : principal ≠ other) : entries rotated other = entries keyring other := by
  cases rotation with
  | first _ => rw [entries_insert, if_neg different]
  | already _ _ => rfl
  | changed _ _ _ => rw [entries_insert, if_neg different]

omit [DecidableEq Key] in
theorem key_of_active (rotation : Rotated keyring principal key now confirmed rotated)
    (healthy : Healthy keyring) (member : entry ∈ entries rotated principal)
    (active : entry.isActive = true) : entry.key = key := by
  cases rotation with
  | first unfound =>
    rw [entries_insert, if_pos rfl, List.mem_append, List.mem_singleton] at member
    rcases member with old | rfl
    · exact absurd active (List.find?_eq_none.mp unfound entry old)
    · rfl
  | already found same =>
    rw [find?_isActive_eq healthy member active] at found
    rw [Option.some.inj found, same]
  | changed _ _ _ =>
    rw [entries_insert, if_pos rfl, List.mem_append, List.mem_singleton] at member
    rcases member with old | rfl
    · rw [inactive_modifyFirst (healthy.oneActive principal) entry old] at active
      cases active
    · rfl

omit [DecidableEq Key] in
theorem keys_subset (rotation : Rotated keyring principal key now confirmed rotated)
    (other : ParsedPrincipal) : keysOf keyring other ⊆ keysOf rotated other := by
  by_cases same : principal = other
  · subst same
    cases rotation with
    | first _ => simp [keysOf, entries_insert]
    | already _ _ => exact List.Subset.refl _
    | changed _ _ _ => simp [keysOf, entries_insert, keys_modifyFirst]
  · rw [keysOf, keysOf, rotation.elsewhere same]
    exact List.Subset.refl _

omit [DecidableEq Key] in
theorem distinct_iff (rotation : Rotated keyring principal key now confirmed rotated)
    (distinct : Distinct keyring) :
    Distinct rotated ↔
      (∃ old, (entries keyring principal).find? KeyEntry.isActive = some old ∧ old.key = key) ∨
        ∀ other, key ∉ keysOf keyring other := by
  have outside := fun other (different : principal ≠ other) =>
    congrArg (List.map KeyEntry.key) (rotation.elsewhere different)
  cases rotation with
  | first unfound =>
    have added : keysOf (keyring.insert principal (entries keyring principal ++ [pinnedEntry key now]))
        principal = keysOf keyring principal ++ [key] := by
      rw [keysOf, entries_insert, if_pos rfl, List.map_append]
      rfl
    rw [distinct_added_iff distinct added outside, unfound]
    simp
  | already found same => exact iff_of_true distinct (.inl ⟨_, found, same⟩)
  | @changed old found different _ =>
    have added : keysOf (keyring.insert principal
        (modifyFirst KeyEntry.isActive (·.inState .retired now) (entries keyring principal) ++
          [pinnedEntry key now])) principal = keysOf keyring principal ++ [key] := by
      rw [keysOf, entries_insert, if_pos rfl, List.map_append, keys_modifyFirst]
      rfl
    rw [distinct_added_iff distinct added outside]
    constructor
    · exact .inr
    · rintro (⟨other, found', same⟩ | fresh)
      · rw [found] at found'
        exact absurd (Option.some.inj found' ▸ same) different
      · exact fresh

end Rotated

/-! ## Reading the key back -/

/-- The keyring was rotated, saved and loaded, and the principal has an active key. -/
def ReadsBack (crypto : KeyCrypto Key) (keyring rotated reloaded : Keyring Key)
    (principal : ParsedPrincipal) (key : Key) (now : String) (confirmed : Bool) : Prop :=
  (∃ outcome, rotateTo crypto keyring principal key now none confirmed = .ok (outcome, rotated)) ∧
    load crypto (save crypto rotated) = .ok reloaded ∧
      ∃ active, activeKey reloaded principal now = .active active

section Back
variable {keyring rotated reloaded : Keyring Key} {principal : ParsedPrincipal} {key : Key}
  {now : String} {confirmed : Bool}

theorem rotateTo_healthy (healthy : Healthy keyring) {outcome : RotationOutcome}
    (done : rotateTo crypto keyring principal key now none confirmed = .ok (outcome, rotated)) :
    Healthy rotated :=
  (rotateTo_changed done).healthy healthy

theorem reloaded_perm (healthy : Healthy rotated) (loaded : load crypto (save crypto rotated) = .ok reloaded)
    (other : ParsedPrincipal) : (entries reloaded other).Perm (entries rotated other) := by
  obtain ⟨again, loaded', same, -⟩ := (reloads_iff healthy).mpr (distinct_of_load healthy loaded)
  rw [loaded] at loaded'
  exact Except.ok.inj loaded' ▸ same other

theorem ReadsBack.active_key (healthy : Healthy keyring)
    (back : ReadsBack crypto keyring rotated reloaded principal key now confirmed) :
    activeKey reloaded principal now = .active key := by
  obtain ⟨⟨outcome, done⟩, loaded, active, found⟩ := back
  obtain ⟨-, -, rotation⟩ := rotateTo_ok_iff.mp ⟨outcome, done⟩
  have healthy' := rotateTo_healthy healthy done
  have reread := (load_healthy crypto loaded).1
  obtain ⟨-, entry, member, live, same⟩ := (activeKey_eq_active_iff reread).mp found
  have inside := (reloaded_perm healthy' loaded principal).mem_iff.mp member
  rw [found, ← same, rotation.key_of_active healthy inside live.active]

theorem ReadsBack.elsewhere (healthy : Healthy keyring)
    (back : ReadsBack crypto keyring rotated reloaded principal key now confirmed)
    (different : principal ≠ other) {time : String} {active : Key} :
    activeKey reloaded other time = .active active ↔ activeKey keyring other time = .active active := by
  obtain ⟨⟨outcome, done⟩, loaded, -⟩ := back
  obtain ⟨-, -, rotation⟩ := rotateTo_ok_iff.mp ⟨outcome, done⟩
  have kept := reloaded_perm (rotateTo_healthy healthy done) loaded other
  rw [rotation.elsewhere different] at kept
  exact activeKey_congr (load_healthy crypto loaded).1 healthy kept

theorem Takes.of_readsBack (healthy : Healthy keyring) (distinct : Distinct keyring)
    (back : ReadsBack crypto keyring rotated reloaded principal key now confirmed) :
    Takes keyring principal key now confirmed := by
  have active := back.active_key healthy
  obtain ⟨⟨outcome, done⟩, loaded, -⟩ := back
  obtain ⟨canonical, -, rotation⟩ := rotateTo_ok_iff.mp ⟨outcome, done⟩
  have healthy' := rotateTo_healthy healthy done
  have apart := (rotation.distinct_iff distinct).mp (distinct_of_load healthy' loaded)
  refine ⟨canonical, fun other entry member same => ?_, fun entry member isActive different => ?_⟩
  · rcases apart with ⟨old, found, same'⟩ | fresh
    · have inside := List.mem_of_find?_eq_some found
      obtain ⟨rfl, rfl⟩ := distinct.entry_eq member inside (same.trans same'.symm)
      -- The keyring was not changed, so the entry that reads back is this one.
      have unchanged : rotated = keyring := by
        cases rotation with
        | first unfound => rw [found] at unfound; cases unfound
        | already _ _ => rfl
        | changed found' different _ =>
          rw [found] at found'
          exact absurd (Option.some.inj found' ▸ same) different
      subst unchanged
      rw [activeKey_eq_active_iff (load_healthy crypto loaded).1] at active
      obtain ⟨-, again, member', live, same''⟩ := active
      have inside' := (reloaded_perm healthy' loaded other).mem_iff.mp member'
      obtain ⟨-, rfl⟩ := distinct.entry_eq member inside' (same.trans same''.symm)
      exact ⟨rfl, live⟩
    · exact absurd (List.mem_map.mpr ⟨entry, member, same⟩) (fresh other)
  · have found := find?_isActive_eq healthy member isActive
    cases rotation with
    | first unfound => rw [found] at unfound; cases unfound
    | already found' same =>
      rw [found] at found'
      exact absurd (Option.some.inj found' ▸ same) different
    | changed _ _ sure => exact sure

theorem Takes.readsBack (healthy : Healthy keyring) (distinct : Distinct keyring)
    (takes : Takes keyring principal key now confirmed) :
    ∃ rotated reloaded, ReadsBack crypto keyring rotated reloaded principal key now confirmed := by
  have unrevoked : isRevokedIn (entries keyring principal) key = false := by
    rw [isRevokedIn, List.any_eq_false]
    intro entry member revoked
    simp only [Bool.and_eq_true, beq_iff_eq] at revoked
    have active := (takes.unused principal entry member revoked.2).2.active
    simp [KeyEntry.isActive, revoked.1] at active
  have fresh_of : (∀ old, (entries keyring principal).find? KeyEntry.isActive = some old → old.key ≠ key) →
      ∀ other, key ∉ keysOf keyring other := by
    intro none other inside
    obtain ⟨entry, member, same⟩ := List.mem_map.mp inside
    obtain ⟨rfl, live⟩ := takes.unused other entry member same
    exact none entry (find?_isActive_eq healthy member live.active) same
  -- In each case the rotated keyring has a live entry for the key and no key twice.
  obtain ⟨rotated, rotation, apart, entry, member, live, same⟩ : ∃ rotated,
      Rotated keyring principal key now confirmed rotated ∧ Distinct rotated ∧
        ∃ entry ∈ entries rotated principal, Live entry now ∧ entry.key = key := by
    cases found : (entries keyring principal).find? KeyEntry.isActive with
    | none =>
      have rotation : Rotated keyring principal key now confirmed _ := .first found
      refine ⟨_, rotation, (rotation.distinct_iff distinct).mpr (.inr (fresh_of ?_)),
        pinnedEntry key now, ?_, live_pinnedEntry key now, rfl⟩
      · simp [found]
      · rw [entries_insert, if_pos rfl]
        simp
    | some old =>
      have inside := List.mem_of_find?_eq_some found
      by_cases same : old.key = key
      · exact ⟨_, .already found same, distinct, old, inside,
          (takes.unused principal old inside same).2, same⟩
      · have sure := takes.sure old inside (List.find?_some found) same
        have rotation : Rotated keyring principal key now confirmed _ := .changed found same sure
        refine ⟨_, rotation, (rotation.distinct_iff distinct).mpr (.inr (fresh_of ?_)),
          pinnedEntry key now, ?_, live_pinnedEntry key now, rfl⟩
        · intro other found'
          rw [found] at found'
          exact Option.some.inj found' ▸ same
        · rw [entries_insert, if_pos rfl]
          simp
  obtain ⟨outcome, done⟩ : ∃ outcome,
      rotateTo crypto keyring principal key now none confirmed = .ok (outcome, rotated) :=
    rotateTo_ok_iff.mpr ⟨takes.canonical, unrevoked, rotation⟩
  have healthy' := rotateTo_healthy healthy done
  obtain ⟨reloaded, loaded, -, -⟩ : Reloads crypto rotated := (reloads_iff healthy').mpr apart
  refine ⟨rotated, reloaded, ⟨outcome, done⟩, loaded, key, ?_⟩
  rw [activeKey_eq_active_iff (load_healthy crypto loaded).1]
  exact ⟨takes.canonical, entry, (reloaded_perm healthy' loaded principal).mem_iff.mpr member, live, same⟩

end Back

end Pinning

end Famp.Keyring
