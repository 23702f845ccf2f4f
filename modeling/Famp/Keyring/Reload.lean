import Famp.Data.Run
import Famp.Keyring.File
import Mathlib.Data.List.Pairwise

/-!
# Saving a keyring and loading it again

Loading accepts the lines of a file exactly when no two of them clash.  The calls of
a keyring never make a second active entry of a principal, and they make a second
entry of a key exactly when they add a key that some entry already has.
-/

set_option autoImplicit false

namespace Famp.Keyring

open Std Famp.Core Data

variable {line : Nat} {principal : ParsedPrincipal} {now : String}

section Admission
variable {Key : Type} {crypto : KeyCrypto Key}

/-! ## The lines that loading accepts -/

/-- Two lines that can stand in one file. -/
structure Compatible (a b : Item Key) : Prop where
  keys : a.2.key ≠ b.2.key
  active : ¬(a.1 = b.1 ∧ a.2.isActive = true ∧ b.2.isActive = true)

theorem Compatible.symm {a b : Item Key} (compatible : Compatible a b) : Compatible b a :=
  ⟨compatible.keys.symm, fun ⟨same, first, second⟩ => compatible.active ⟨same.symm, second, first⟩⟩

instance : Symm (@Compatible Key) := ⟨fun _ _ => Compatible.symm⟩

theorem Compatible.ne {a b : Item Key} (compatible : Compatible a b) : a ≠ b := by
  rintro rfl
  exact compatible.keys rfl

/-- The state of loading after the lines `done`. -/
structure Loaded (state : LoadState Key) (done : List (Item Key)) : Prop where
  listed : ∀ principal, entries state.map principal =
    (done.filter fun item => decide (item.1 = principal)).map Prod.snd
  seen : state.seenKeys = (done.map fun item => (item.2.key, item.1)).reverse

theorem loaded_nil : Loaded (⟨∅, []⟩ : LoadState Key) [] :=
  ⟨fun _ => by simp [entries], rfl⟩

variable {item : Item Key} {state next : LoadState Key} {done : List (Item Key)}

theorem Loaded.mem_entries_iff (loaded : Loaded state done) {entry : KeyEntry Key} :
    entry ∈ entries state.map principal ↔ (principal, entry) ∈ done := by
  simp [loaded.listed]

theorem parseTs_ok {field raw : String} {time : Option String}
    (parsed : parseTs line field raw = .ok time) : optionalCanonical time = true := by
  unfold parseTs at parsed
  split at parsed
  · cases parsed
    rfl
  · split at parsed
    next => cases parsed
    next canonical =>
      cases parsed
      simpa [optionalCanonical] using canonical

theorem parseFields_canonical {fields : List String}
    (parsed : parseFields crypto line fields = .ok item) : item.2.isCanonical = true := by
  unfold parseFields at parsed
  split at parsed
  · simp only [bind, Except.bind, pure, Except.pure] at parsed
    split at parsed
    · cases parsed
    · cases parsed
      rfl
  · simp only [bind, Except.bind, pure, Except.pure] at parsed
    split at parsed
    next => cases parsed
    next =>
      split at parsed
      next => cases parsed
      next =>
        split at parsed
        next => cases parsed
        next valid =>
          split at parsed
          next => cases parsed
          next pinned =>
            split at parsed
            next => cases parsed
            next since =>
              cases parsed
              simp [KeyEntry.isCanonical, parseTs_ok valid, parseTs_ok pinned, parseTs_ok since]
  · cases parsed

theorem parseLine_canonical {raw : List Char} (parsed : parseLine crypto raw line = .ok item) :
    item.2.isCanonical = true := by
  simp only [parseLine] at parsed
  generalize (if raw.getLast? = some '\r' then raw.dropLast else raw) = text at parsed
  split at parsed
  · cases parsed
  · exact parseFields_canonical parsed

variable [DecidableEq Key]

theorem admitItem_ok_iff (loaded : Loaded state done) :
    admitItem line state item = .ok next ↔
      (∀ earlier ∈ done, Compatible earlier item) ∧
        next = ⟨state.map.insert item.1 (entries state.map item.1 ++ [item.2]),
          (item.2.key, item.1) :: state.seenKeys⟩ := by
  obtain ⟨principal, entry⟩ := item
  have twice : (entry.isActive && (entries state.map principal).any KeyEntry.isActive) = true ↔
      ∃ earlier ∈ done, earlier.1 = principal ∧ earlier.2.isActive = true ∧ entry.isActive = true := by
    simp only [Bool.and_eq_true, List.any_eq_true, loaded.mem_entries_iff]
    constructor
    · rintro ⟨active, earlier, member, active'⟩
      exact ⟨_, member, rfl, active', active⟩
    · rintro ⟨⟨_, earlier⟩, member, rfl, active', active⟩
      exact ⟨active, earlier, member, active'⟩
  have again : state.seenKeys.find? (fun seen => seen.1 == entry.key) = none ↔
      ∀ earlier ∈ done, earlier.2.key ≠ entry.key := by
    rw [List.find?_eq_none, loaded.seen]
    simp only [List.mem_reverse, List.forall_mem_map, beq_iff_eq, ne_eq]
  simp only [admitItem]
  split
  next active =>
    obtain ⟨earlier, member, same, both⟩ := twice.mp active
    simp only [reduceCtorEq, false_iff, not_and]
    exact fun compatible => absurd ⟨same, both⟩ (compatible earlier member).active
  next inactive =>
    have inactive := mt twice.mpr inactive
    split
    next existing found =>
      have repeated : ∃ earlier ∈ done, earlier.2.key = entry.key := by
        by_contra fresh
        push Not at fresh
        rw [again.mpr fresh] at found
        cases found
      obtain ⟨earlier, member, same⟩ := repeated
      have refused : ¬∀ earlier ∈ done, Compatible earlier (principal, entry) := fun compatible =>
        (compatible earlier member).keys same
      split
      · exact ⟨fun failed => (by cases failed), fun fits => absurd fits.1 refused⟩
      · exact ⟨fun failed => (by cases failed), fun fits => absurd fits.1 refused⟩
    next fresh =>
      have compatible : ∀ earlier ∈ done, Compatible earlier (principal, entry) := fun earlier member =>
        ⟨again.mp fresh earlier member, fun both => inactive ⟨earlier, member, both⟩⟩
      exact ⟨fun same => ⟨compatible, (Except.ok.inj same).symm⟩, fun fits => fits.2 ▸ rfl⟩

theorem Loaded.admitItem (loaded : Loaded state done) (admitted : admitItem line state item = .ok next) :
    Loaded next (done ++ [item]) := by
  obtain ⟨-, rfl⟩ := (admitItem_ok_iff loaded).mp admitted
  refine ⟨fun principal => ?_, by simp [loaded.seen]⟩
  rw [entries_insert, loaded.listed, loaded.listed]
  split
  next same => simp [same]
  next other => simp [other]

theorem pairwise_admitItem (loaded : Loaded state done) (admitted : admitItem line state item = .ok next)
    (pairwise : done.Pairwise Compatible) : (done ++ [item]).Pairwise Compatible := by
  refine List.pairwise_append.mpr ⟨pairwise, List.pairwise_singleton _ _, fun earlier member last here => ?_⟩
  obtain rfl := List.mem_singleton.mp here
  exact ((admitItem_ok_iff loaded).mp admitted).1 earlier member

/-- Whatever the text, what is loaded comes from lines that do not clash. -/
theorem loadLines_loaded {raws : List (List Char)} :
    ∀ {line : Nat} {state final : LoadState Key} {done : List (Item Key)}, Loaded state done →
      done.Pairwise Compatible → (∀ item ∈ done, item.2.isCanonical = true) →
      loadLines crypto line raws state = .ok final →
        ∃ all, Loaded final all ∧ all.Pairwise Compatible ∧ ∀ item ∈ all, item.2.isCanonical = true := by
  induction raws with
  | nil =>
    intro line state final done loaded pairwise canonical finished
    cases finished
    exact ⟨done, loaded, pairwise, canonical⟩
  | cons raw rest ih =>
    intro line state final done loaded pairwise canonical finished
    simp only [loadLines] at finished
    split at finished
    next => exact ih loaded pairwise canonical finished
    next =>
      split at finished
      next => cases finished
      next item parsed =>
        split at finished
        next => cases finished
        next next admitted =>
          refine ih (loaded.admitItem admitted) (pairwise_admitItem loaded admitted pairwise) ?_ finished
          simp only [List.forall_mem_append, List.forall_mem_singleton]
          exact ⟨canonical, parseLine_canonical parsed⟩

theorem loadLines_serialized (rest : List (List Char)) (state : LoadState Key)
    (canonical : item.2.isCanonical = true) :
    loadLines crypto line (serializedLine crypto item :: rest) state =
      (admitItem line state item).bind (loadLines crypto (line + 1) rest) := by
  simp only [loadLines, isSkipped_serialized, parseLine_serialized line canonical, Bool.false_eq_true,
    if_false]
  cases admitItem line state item <;> rfl

theorem loadLines_saved {list : List (Item Key)} :
    ∀ {line : Nat} {state final : LoadState Key} {done : List (Item Key)}, Loaded state done →
      done.Pairwise Compatible → (∀ item ∈ list, item.2.isCanonical = true) →
      loadLines crypto line (list.map (serializedLine crypto)) state = .ok final →
        Loaded final (done ++ list) ∧ (done ++ list).Pairwise Compatible := by
  induction list with
  | nil =>
    intro line state final done loaded pairwise _ finished
    cases finished
    rw [List.append_nil]
    exact ⟨loaded, pairwise⟩
  | cons item rest ih =>
    intro line state final done loaded pairwise canonical finished
    obtain ⟨first, later⟩ := List.forall_mem_cons.mp canonical
    rw [List.map_cons, loadLines_serialized _ _ first] at finished
    cases admitted : admitItem line state item with
    | error error => simp [admitted, Except.bind] at finished
    | ok next =>
      rw [admitted] at finished
      rw [List.append_cons]
      exact ih (loaded.admitItem admitted) (pairwise_admitItem loaded admitted pairwise) later finished

theorem loadLines_accepts {list : List (Item Key)} :
    ∀ {line : Nat} {state : LoadState Key} {done : List (Item Key)}, Loaded state done →
      (∀ item ∈ list, item.2.isCanonical = true) → (done ++ list).Pairwise Compatible →
        ∃ final, loadLines crypto line (list.map (serializedLine crypto)) state = .ok final := by
  induction list with
  | nil => exact fun {_ state _} _ _ _ => ⟨state, rfl⟩
  | cons item rest ih =>
    intro line state done loaded canonical pairwise
    obtain ⟨first, later⟩ := List.forall_mem_cons.mp canonical
    have compatible : ∀ earlier ∈ done, Compatible earlier item := fun earlier member =>
      (List.pairwise_append.mp pairwise).2.2 earlier member item List.mem_cons_self
    have admitted : admitItem line state item = .ok _ := (admitItem_ok_iff loaded).mpr ⟨compatible, rfl⟩
    rw [List.append_cons] at pairwise
    rw [List.map_cons, loadLines_serialized _ _ first, admitted]
    exact ih (loaded.admitItem admitted) later pairwise

end Admission

/-! ## Keyrings without clashes -/

section Health
variable {Key : Type} {crypto : KeyCrypto Key}

/-- What the calls of a keyring always keep. -/
structure Healthy (keyring : Keyring Key) : Prop where
  canonical : ∀ principal, ∀ entry ∈ entries keyring principal, entry.isCanonical = true
  oneActive : ∀ principal, (entries keyring principal).Pairwise fun a b =>
    ¬(a.isActive = true ∧ b.isActive = true)

def keysOf (keyring : Keyring Key) (principal : ParsedPrincipal) : List Key :=
  (entries keyring principal).map KeyEntry.key

/-- No two entries have one key. -/
structure Distinct (keyring : Keyring Key) : Prop where
  within : ∀ principal, (keysOf keyring principal).Nodup
  across : ∀ principal other, principal ≠ other →
    (keysOf keyring principal).Disjoint (keysOf keyring other)

theorem Loaded.healthy {state : LoadState Key} {done : List (Item Key)} (loaded : Loaded state done)
    (pairwise : done.Pairwise Compatible) (canonical : ∀ item ∈ done, item.2.isCanonical = true) :
    Healthy state.map := by
  refine ⟨fun principal entry member => canonical _ (loaded.mem_entries_iff.mp member), fun principal => ?_⟩
  rw [loaded.listed, List.pairwise_map]
  refine (pairwise.filter _).imp_of_mem fun {a b} first second compatible active => ?_
  have named : a.1 = principal := by simpa using (List.mem_filter.mp first).2
  have named' : b.1 = principal := by simpa using (List.mem_filter.mp second).2
  exact compatible.active ⟨named.trans named'.symm, active⟩

theorem Loaded.distinct {state : LoadState Key} {done : List (Item Key)} (loaded : Loaded state done)
    (pairwise : done.Pairwise Compatible) : Distinct state.map := by
  constructor
  · intro principal
    rw [keysOf, loaded.listed, List.map_map, List.Nodup, List.pairwise_map]
    exact (pairwise.filter _).imp fun compatible => compatible.keys
  · intro principal other different key first second
    obtain ⟨a, member, rfl⟩ := List.mem_map.mp first
    obtain ⟨b, member', same⟩ := List.mem_map.mp second
    have clash := pairwise.forall (loaded.mem_entries_iff.mp member)
      (loaded.mem_entries_iff.mp member') fun equal => different (congrArg Prod.fst equal)
    exact clash.keys same.symm

variable {keyring : Keyring Key}

theorem mem_items_iff {entry : KeyEntry Key} :
    (principal, entry) ∈ items crypto keyring ↔ entry ∈ entries keyring principal := by
  simp only [items, List.mem_flatMap, Prod.exists, ExtTreeMap.mem_toList_iff_getElem?_eq_some,
    List.mem_map, Prod.mk.injEq, sortEntries, List.mem_mergeSort]
  unfold entries
  rw [ExtTreeMap.getD_eq_getD_getElem?]
  constructor
  · rintro ⟨other, list, found, entry', member, rfl, rfl⟩
    rwa [found]
  · intro member
    cases found : keyring[principal]? with
    | none => simp [found] at member
    | some list => exact ⟨principal, list, found, entry, by simpa [found] using member, rfl, rfl⟩

theorem listed_of_mem {list : List (KeyEntry Key)} (member : (principal, list) ∈ keyring.toList) :
    entries keyring principal = list := by
  rw [ExtTreeMap.mem_toList_iff_getElem?_eq_some] at member
  rw [entries, ExtTreeMap.getD_eq_getD_getElem?, member]
  rfl

theorem perm_sortEntries (list : List (KeyEntry Key)) : (sortEntries crypto list).Perm list :=
  List.mergeSort_perm _ _

theorem pairwise_items (healthy : Healthy keyring) (distinct : Distinct keyring) :
    (items crypto keyring).Pairwise Compatible := by
  refine List.pairwise_flatMap.mpr ⟨?_, ?_⟩
  · rintro ⟨principal, list⟩ member
    obtain rfl := listed_of_mem member
    have keys := List.pairwise_map.mp (distinct.within principal)
    have apart : (entries keyring principal).Pairwise fun a b => Compatible (principal, a) (principal, b) :=
      keys.imp₂ (fun a b keys active => ⟨keys, fun both => active both.2⟩) (healthy.oneActive principal)
    exact List.pairwise_map.mpr ((perm_sortEntries _).symm.pairwise apart Compatible.symm)
  · refine ExtTreeMap.distinct_keys_toList.imp_of_mem ?_
    rintro ⟨principal, list⟩ ⟨other, list'⟩ first second different a member b member'
    obtain rfl := listed_of_mem first
    obtain rfl := listed_of_mem second
    obtain ⟨a, inside, rfl⟩ := List.mem_map.mp member
    obtain ⟨b, inside', rfl⟩ := List.mem_map.mp member'
    have different : principal ≠ other := by simpa using different
    have keys : a.key ∈ keysOf keyring principal :=
      List.mem_map_of_mem ((perm_sortEntries _).mem_iff.mp inside)
    have keys' : b.key ∈ keysOf keyring other :=
      List.mem_map_of_mem ((perm_sortEntries _).mem_iff.mp inside')
    refine ⟨fun same => distinct.across principal other different keys ?_, fun both => different both.1⟩
    rwa [show a.key = b.key from same]

theorem distinct_of_pairwise (pairwise : (items crypto keyring).Pairwise Compatible) :
    Distinct keyring := by
  constructor
  · intro principal
    cases found : keyring[principal]? with
    | none =>
      rw [keysOf, entries, ExtTreeMap.getD_eq_getD_getElem?, found]
      exact List.nodup_nil
    | some list =>
      have member := ExtTreeMap.mem_toList_iff_getElem?_eq_some.mpr found
      have apart := List.pairwise_map.mp ((List.pairwise_flatMap.mp pairwise).1 _ member)
      rw [keysOf, listed_of_mem member, List.Nodup, List.pairwise_map]
      exact (perm_sortEntries list).pairwise (apart.imp fun compatible => compatible.keys) Ne.symm
  · intro principal other different key first second
    obtain ⟨a, member, rfl⟩ := List.mem_map.mp first
    obtain ⟨b, member', same⟩ := List.mem_map.mp second
    have clash := pairwise.forall (mem_items_iff.mpr member) (mem_items_iff.mpr member') fun equal =>
      different (congrArg Prod.fst equal)
    exact clash.keys same.symm

/-! ## The order of the saved lines -/

/-- One line may stand before another. -/
def Precedes (crypto : KeyCrypto Key) (a b : Item Key) : Prop :=
  compare a.1 b.1 = .lt ∨ a.1 = b.1 ∧ crypto.toB64url a.2.key ≤ crypto.toB64url b.2.key

theorem toB64url_injective {a b : Key} (same : crypto.toB64url a = crypto.toB64url b) : a = b := by
  have read := crypto.fromB64url_toB64url a
  rw [same, crypto.fromB64url_toB64url] at read
  exact (Option.some.inj read).symm

theorem Precedes.same_key {a b : Item Key} (before : Precedes crypto a b) (after : Precedes crypto b a) :
    a.2.key = b.2.key := by
  rcases before with less | ⟨same, below⟩
  · rcases after with less' | ⟨same, -⟩
    · exact absurd less' (OrientedCmp.not_lt_of_lt less)
    · simp [same] at less
  · rcases after with less | ⟨-, above⟩
    · simp [same] at less
    · exact toB64url_injective (String.le_antisymm below above)

theorem ordered_items (keyring : Keyring Key) : (items crypto keyring).Pairwise (Precedes crypto) := by
  refine List.pairwise_flatMap.mpr ⟨?_, ?_⟩
  · rintro ⟨principal, list⟩ -
    have sorted : (sortEntries crypto list).Pairwise fun a b =>
        decide (crypto.toB64url a.key ≤ crypto.toB64url b.key) = true := by
      refine List.pairwise_mergeSort (fun a b c first second => ?_) (fun a b => ?_) list
      · simp only [decide_eq_true_eq] at first second ⊢
        exact String.le_trans first second
      · simpa using String.le_total (crypto.toB64url a.key) (crypto.toB64url b.key)
    exact List.pairwise_map.mpr (sorted.imp fun below => .inr ⟨rfl, of_decide_eq_true below⟩)
  · refine ExtTreeMap.ordered_keys_toList.imp ?_
    rintro ⟨principal, list⟩ ⟨other, list'⟩ less a member b member'
    obtain ⟨a, -, rfl⟩ := List.mem_map.mp member
    obtain ⟨b, -, rfl⟩ := List.mem_map.mp member'
    exact .inl less

theorem items_eq {other : Keyring Key} (pairwise : (items crypto keyring).Pairwise Compatible)
    (pairwise' : (items crypto other).Pairwise Compatible)
    (same : ∀ item, item ∈ items crypto keyring ↔ item ∈ items crypto other) :
    items crypto keyring = items crypto other := by
  have nodup : (items crypto keyring).Nodup := pairwise.imp Compatible.ne
  have nodup' : (items crypto other).Nodup := pairwise'.imp Compatible.ne
  have perm := (List.perm_ext_iff_of_nodup nodup nodup').mpr same
  refine perm.eq_of_pairwise (fun a b member member' before after => ?_) (ordered_items keyring)
    (ordered_items other)
  by_contra different
  exact (pairwise.forall member ((same b).mpr member') different).keys (before.same_key after)

theorem canonical_items (healthy : Healthy keyring) :
    ∀ item ∈ items crypto keyring, item.2.isCanonical = true := fun item member =>
  healthy.canonical item.1 item.2 (mem_items_iff.mp member)

variable [DecidableEq Key]

/-- Loading what was saved gives the same entries, which are saved in the same way. -/
def Reloads (crypto : KeyCrypto Key) (keyring : Keyring Key) : Prop :=
  ∃ reloaded, load crypto (save crypto keyring) = .ok reloaded ∧
    (∀ principal, (entries reloaded principal).Perm (entries keyring principal)) ∧
      save crypto reloaded = save crypto keyring

theorem load_save (healthy : Healthy keyring) :
    load crypto (save crypto keyring) =
      (loadLines crypto 1 ((items crypto keyring).map (serializedLine crypto)) ⟨∅, []⟩).map
        LoadState.map := by
  rw [load, save, lines_save (canonical_items healthy)]

theorem distinct_of_load {reloaded : Keyring Key} (healthy : Healthy keyring)
    (loaded : load crypto (save crypto keyring) = .ok reloaded) : Distinct keyring := by
  rw [load_save healthy] at loaded
  cases finished : loadLines crypto 1 ((items crypto keyring).map (serializedLine crypto)) ⟨∅, []⟩ with
  | error error => simp [finished, Except.map] at loaded
  | ok final =>
    have saved := loadLines_saved loaded_nil List.Pairwise.nil (canonical_items healthy) finished
    exact distinct_of_pairwise saved.2

/-- A healthy keyring reloads exactly when no two of its entries have one key. -/
theorem reloads_iff (healthy : Healthy keyring) : Reloads crypto keyring ↔ Distinct keyring := by
  constructor
  · rintro ⟨reloaded, loaded, -, -⟩
    exact distinct_of_load healthy loaded
  · intro distinct
    have pairwise : (items crypto keyring).Pairwise Compatible := pairwise_items healthy distinct
    obtain ⟨final, finished⟩ : ∃ final,
        loadLines crypto 1 ((items crypto keyring).map (serializedLine crypto)) ⟨∅, []⟩ = .ok final :=
      loadLines_accepts loaded_nil (canonical_items healthy) pairwise
    obtain ⟨loaded, -⟩ := loadLines_saved loaded_nil List.Pairwise.nil (canonical_items healthy) finished
    rw [List.nil_append] at loaded
    have healthy' := loaded.healthy pairwise (canonical_items healthy)
    have distinct' := loaded.distinct pairwise
    have same : ∀ principal entry,
        entry ∈ entries final.map principal ↔ entry ∈ entries keyring principal := fun principal entry =>
      loaded.mem_entries_iff.trans mem_items_iff
    refine ⟨final.map, by rw [load_save healthy, finished]; rfl, fun principal => ?_, ?_⟩
    · exact (List.perm_ext_iff_of_nodup (distinct'.within principal).of_map
        (distinct.within principal).of_map).mpr (same principal)
    · rw [save, save, items_eq (pairwise_items healthy' distinct') pairwise fun item => ?_]
      exact mem_items_iff.trans ((same item.1 item.2).trans mem_items_iff.symm)

end Health

/-! ## What the calls keep -/

section Calls
variable {Key : Type} {crypto : KeyCrypto Key}

theorem pairwise_modifyFirst {α : Type} {R : α → α → Prop} {test : α → Bool} {change : α → α}
    (left : ∀ a b, R a b → R (change a) b) (right : ∀ a b, R a b → R a (change b)) {list : List α}
    (pairwise : list.Pairwise R) : (modifyFirst test change list).Pairwise R := by
  induction list with
  | nil => exact .nil
  | cons x rest ih =>
    obtain ⟨first, later⟩ := List.pairwise_cons.mp pairwise
    unfold modifyFirst
    split
    · exact List.pairwise_cons.mpr ⟨fun y member => left x y (first y member), later⟩
    · refine List.pairwise_cons.mpr ⟨fun y member => ?_, ih later⟩
      rcases mem_modifyFirst_iff.mp member with kept | ⟨old, found, rfl⟩
      · exact first y (List.mem_of_mem_eraseP kept)
      · exact right x old (first old (List.mem_of_find?_eq_some found))

theorem keys_modifyFirst (test : KeyEntry Key → Bool) (state : KeyState) (now : String)
    (list : List (KeyEntry Key)) :
    (modifyFirst test (·.inState state now) list).map KeyEntry.key = list.map KeyEntry.key :=
  map_modifyFirst (by exact fun _ => rfl) list

theorem isCanonical_inState {entry : KeyEntry Key} {state : KeyState}
    (canonical : entry.isCanonical = true) (timely : isCanonicalUtc now = true) :
    (entry.inState state now).isCanonical = true := by
  obtain ⟨validUntil, pinnedAt, -⟩ := canonical_parts canonical
  simp only [KeyEntry.isCanonical, KeyEntry.inState, validUntil, pinnedAt, Bool.and_self, Bool.true_and]
  exact timely

theorem canonical_modifyFirst {test : KeyEntry Key → Bool} {state : KeyState}
    {list : List (KeyEntry Key)} (canonical : ∀ entry ∈ list, entry.isCanonical = true)
    (timely : isCanonicalUtc now = true) :
    ∀ entry ∈ modifyFirst test (·.inState state now) list, entry.isCanonical = true := by
  intro entry member
  rcases mem_modifyFirst_iff.mp member with kept | ⟨old, found, rfl⟩
  · exact canonical entry (List.mem_of_mem_eraseP kept)
  · exact isCanonical_inState (canonical old (List.mem_of_find?_eq_some found)) timely

theorem inactive_modifyFirst {list : List (KeyEntry Key)}
    (oneActive : list.Pairwise fun a b => ¬(a.isActive = true ∧ b.isActive = true)) :
    ∀ entry ∈ modifyFirst KeyEntry.isActive (·.inState .retired now) list, entry.isActive = false := by
  induction list with
  | nil => exact fun entry member => by cases member
  | cons first rest ih =>
    obtain ⟨alone, later⟩ := List.pairwise_cons.mp oneActive
    unfold modifyFirst
    split
    next active =>
      refine List.forall_mem_cons.mpr ⟨rfl, fun entry member => ?_⟩
      simpa using fun active' => alone entry member ⟨active, active'⟩
    next inactive => exact List.forall_mem_cons.mpr ⟨by simpa using inactive, ih later⟩

variable {entries changed : List (KeyEntry Key)} {keyring : Keyring Key}

theorem Distinct.sublist {changed : Keyring Key} (distinct : Distinct keyring)
    (fewer : ∀ principal, (keysOf changed principal).Sublist (keysOf keyring principal)) :
    Distinct changed :=
  ⟨fun principal => (distinct.within principal).sublist (fewer principal),
    fun principal other different _ first second => distinct.across principal other different
      ((fewer principal).subset first) ((fewer other).subset second)⟩

theorem distinct_added_iff {changed : Keyring Key} {key : Key} (distinct : Distinct keyring)
    (here : keysOf changed principal = keysOf keyring principal ++ [key])
    (others : ∀ other, principal ≠ other → keysOf changed other = keysOf keyring other) :
    Distinct changed ↔ ∀ other, key ∉ keysOf keyring other := by
  constructor
  · intro distinct' other member
    by_cases same : principal = other
    · subst same
      have nodup := distinct'.within principal
      rw [here] at nodup
      exact (List.nodup_append.mp nodup).2.2 key member key (List.mem_singleton_self key) rfl
    · refine distinct'.across principal other same (a := key) ?_ ?_
      · simp [here]
      · rwa [others other same]
  · intro fresh
    constructor
    · intro other
      by_cases same : principal = other
      · subst same
        rw [here, List.nodup_append]
        refine ⟨distinct.within principal, List.nodup_singleton key, fun old member new added => ?_⟩
        rintro rfl
        exact fresh principal (List.mem_singleton.mp added ▸ member)
      · rw [others other same]
        exact distinct.within other
    · intro first second different shared member member'
      have known : ∀ other, shared ∈ keysOf changed other →
          shared ∈ keysOf keyring other ∨ other = principal ∧ shared = key := by
        intro other member
        by_cases same : principal = other
        · subst same
          rw [here, List.mem_append, List.mem_singleton] at member
          exact member.imp_right fun new => ⟨rfl, new⟩
        · rw [others other same] at member
          exact .inl member
      rcases known first member with old | ⟨rfl, rfl⟩
      · rcases known second member' with old' | ⟨rfl, rfl⟩
        · exact distinct.across first second different old old'
        · exact fresh first old
      · rcases known second member' with old' | ⟨rfl, -⟩
        · exact fresh second old'
        · exact different rfl

variable [DecidableEq Key]

theorem Edit.canonical {added : Option Key} (edit : Edit crypto entries changed added)
    (canonical : ∀ entry ∈ entries, entry.isCanonical = true) :
    ∀ entry ∈ changed, entry.isCanonical = true := by
  cases edit with
  | pin _ _ _ pinned =>
    simp only [List.forall_mem_append, List.forall_mem_singleton]
    exact ⟨canonical, pinned⟩
  | rotate _ _ _ pinned timely =>
    simp only [List.forall_mem_append, List.forall_mem_singleton]
    exact ⟨canonical_modifyFirst canonical timely, pinned⟩
  | retire _ _ => exact fun entry member => canonical entry (List.mem_of_mem_eraseP member)
  | revoke _ timely => exact canonical_modifyFirst canonical timely

theorem Edit.oneActive {added : Option Key} (edit : Edit crypto entries changed added)
    (oneActive : entries.Pairwise fun a b => ¬(a.isActive = true ∧ b.isActive = true)) :
    changed.Pairwise fun a b => ¬(a.isActive = true ∧ b.isActive = true) := by
  have appended : ∀ {list : List (KeyEntry Key)} (pinned : KeyEntry Key),
      list.Pairwise (fun a b => ¬(a.isActive = true ∧ b.isActive = true)) →
      (∀ entry ∈ list, entry.isActive = false) →
      (list ++ [pinned]).Pairwise fun a b => ¬(a.isActive = true ∧ b.isActive = true) := by
    intro list pinned pairwise inactive
    refine List.pairwise_append.mpr ⟨pairwise, List.pairwise_singleton _ _, fun entry member _ _ both => ?_⟩
    rw [inactive entry member] at both
    cases both.1
  -- An entry that is no longer active stands beside any other.
  have dimmed : ∀ {test : KeyEntry Key → Bool} {state : KeyState} (now : String), state ≠ .active →
      (modifyFirst test (·.inState state now) entries).Pairwise fun a b =>
        ¬(a.isActive = true ∧ b.isActive = true) := by
    intro test state now dim
    have inactive : ∀ entry : KeyEntry Key, (entry.inState state now).isActive = false := by
      intro entry
      simpa [KeyEntry.isActive, KeyEntry.inState] using dim
    refine pairwise_modifyFirst ?_ ?_ oneActive
    · intro a b _ both
      rw [inactive a] at both
      cases both.1
    · intro a b _ both
      rw [inactive b] at both
      cases both.2
  cases edit with
  | pin unfound =>
    refine appended _ oneActive fun entry member => ?_
    simpa using List.find?_eq_none.mp unfound entry member
  | rotate _ _ _ _ _ => exact appended _ (dimmed _ (by decide)) (inactive_modifyFirst oneActive)
  | retire _ _ => exact oneActive.sublist List.eraseP_sublist
  | revoke _ _ => exact dimmed _ (by decide)

theorem Edit.keys_none (edit : Edit crypto entries changed none) :
    (changed.map KeyEntry.key).Sublist (entries.map KeyEntry.key) := by
  generalize kept : (none : Option Key) = added at edit
  cases edit with
  | pin _ _ _ _ => cases kept
  | rotate _ _ _ _ _ => cases kept
  | retire _ _ => exact List.eraseP_sublist.map _
  | revoke _ _ =>
    rw [keys_modifyFirst]

theorem Edit.keys_some {key : Key} (edit : Edit crypto entries changed (some key)) :
    changed.map KeyEntry.key = entries.map KeyEntry.key ++ [key] := by
  generalize fresh : some key = added at edit
  cases edit with
  | pin _ _ _ _ =>
    cases fresh
    rw [List.map_append, List.map_singleton]
  | rotate _ _ _ _ _ =>
    cases fresh
    rw [List.map_append, List.map_singleton, keys_modifyFirst]
  | retire _ _ => cases fresh
  | revoke _ _ => cases fresh

theorem Changed.healthy {changed : Keyring Key} {added : Option (ParsedPrincipal × Key)}
    (change : Changed crypto keyring changed added) (healthy : Healthy keyring) :
    Healthy changed := by
  cases change with
  | same equal => rwa [equal]
  | @edited principal added edit others =>
    constructor
    · intro other
      by_cases here : principal = other
      · subst here
        exact edit.canonical (healthy.canonical principal)
      · rw [others other here]
        exact healthy.canonical other
    · intro other
      by_cases here : principal = other
      · subst here
        exact edit.oneActive (healthy.oneActive principal)
      · rw [others other here]
        exact healthy.oneActive other

end Calls

/-! ## Every run -/

section Runs
variable {Key : Type} [DecidableEq Key] (crypto : KeyCrypto Key)

/-- The call adds an entry for a key that some entry already has. -/
def RepeatsKey (keyring : Keyring Key) (call : Call Key) : Prop :=
  ∃ principal key, added? keyring call = some (principal, key) ∧ ∃ other, key ∈ keysOf keyring other

variable {keyring : Keyring Key}

theorem perform_distinct_iff (distinct : Distinct keyring) (call : Call Key) :
    Distinct (perform crypto keyring call).2 ↔ ¬RepeatsKey keyring call := by
  have change := perform_changed crypto keyring call
  unfold RepeatsKey
  generalize (perform crypto keyring call).2 = changed at change ⊢
  generalize added? keyring call = added at change ⊢
  cases change with
  | same equal => simp [equal, distinct]
  | @edited principal added edit others =>
    have elsewhere : ∀ other, principal ≠ other → keysOf changed other = keysOf keyring other :=
      fun other different => congrArg (List.map KeyEntry.key) (others other different)
    cases added with
    | none =>
      have fewer : ∀ other, (keysOf changed other).Sublist (keysOf keyring other) := by
        intro other
        by_cases here : principal = other
        · subst here
          exact edit.keys_none
        · rw [elsewhere other here]
      simp [distinct.sublist fewer]
    | some key =>
      rw [distinct_added_iff distinct edit.keys_some elsewhere]
      simp

theorem load_healthy {text : List Char} (done : load crypto text = .ok keyring) :
    Healthy keyring ∧ Distinct keyring := by
  unfold load at done
  cases finished : loadLines crypto 1 (lines text) ⟨∅, []⟩ with
  | error error => simp [finished, Except.map] at done
  | ok final =>
    obtain ⟨all, loaded, pairwise, canonical⟩ :=
      loadLines_loaded loaded_nil List.Pairwise.nil (fun _ member => by cases member) finished
    simp only [finished, Except.map, Except.ok.injEq] at done
    subst done
    exact ⟨loaded.healthy pairwise canonical, loaded.distinct pairwise⟩

theorem perform_healthy (healthy : Healthy keyring) (call : Call Key) :
    Healthy (perform crypto keyring call).2 :=
  (perform_changed crypto keyring call).healthy healthy

/-- A new keyring, or one that was loaded. -/
def IsInitial (keyring : Keyring Key) : Prop := keyring = ∅ ∨ ∃ text, load crypto text = .ok keyring

theorem IsInitial.healthy (initial : IsInitial crypto keyring) :
    Healthy keyring ∧ Distinct keyring := by
  rcases initial with rfl | ⟨text, done⟩
  · exact ⟨loaded_nil.healthy .nil nofun, loaded_nil.distinct .nil⟩
  · exact load_healthy crypto done

/-- The keyring can be saved and loaded again after every call of a run, exactly when
no call adds an entry for a key that some entry already has. -/
theorem keyring_reloads_iff (start : Keyring Key) (initial : IsInitial crypto start)
    (calls : List (Call Key)) :
    (Reloads crypto (stateOf (perform crypto) start calls) ∧
        ∀ event ∈ traceOf (perform crypto) start calls, Reloads crypto event.before) ↔
      ∀ event ∈ traceOf (perform crypto) start calls, ¬RepeatsKey event.before event.input := by
  obtain ⟨healthy, distinct⟩ := initial.healthy
  have always : ∀ {trace keyring}, (Machine.ofFunction (perform crypto) start).Run trace keyring →
      Healthy keyring := by
    intro trace keyring run
    refine run.invariant Healthy (fun keyring (same : keyring = start) => same ▸ healthy) ?_
    intro keyring call output changed healthy step
    have kept := perform_healthy crypto healthy call
    rwa [show perform crypto keyring call = (output, changed) from step] at kept
  refine Machine.Run.everywhere_iff (fun event => ¬RepeatsKey event.before event.input) (Reloads crypto)
    (fun keyring (same : keyring = start) => same ▸ (reloads_iff healthy).mpr distinct) ?_ (run_traceOf (perform crypto) start calls)
  intro trace keyring call output changed run reloads step
  have healthy := always run
  rw [reloads_iff (always (run.step step)), ← perform_distinct_iff crypto ((reloads_iff healthy).mp reloads),
    show perform crypto keyring call = (output, changed) from step]

end Runs

/-- One key, another, and the revocation of the first. -/
def rotatedAway : List (Call (Fin 3)) :=
  [.pinTofu sampleAlice 0, .rotateTo sampleAlice 1 "2026-11-16T12:00:00Z" none true,
    .revoke sampleAlice "keyA" "2026-11-16T13:00:00Z"]

theorem rotatedAway_reloads :
    Reloads sampleCrypto (stateOf (perform sampleCrypto) ∅ rotatedAway) ∧
      ∀ event ∈ traceOf (perform sampleCrypto) ∅ rotatedAway, Reloads sampleCrypto event.before := by
  refine (keyring_reloads_iff sampleCrypto ∅ (.inl rfl) rotatedAway).mpr ?_
  simp only [rotatedAway, traceOf, List.forall_mem_cons]
  refine ⟨?_, ?_, ?_, fun _ member => by cases member⟩
  · rintro ⟨principal, key, -, other, member⟩
    cases member
  · have pinned : (perform sampleCrypto ∅ (.pinTofu sampleAlice 0)).2 =
        (∅ : Keyring (Fin 3)).insert sampleAlice [KeyEntry.legacy 0] := rfl
    rw [pinned]
    rintro ⟨principal, key, added, other, member⟩
    have second : key = 1 := by
      rw [show added? ((∅ : Keyring (Fin 3)).insert sampleAlice [KeyEntry.legacy 0])
        (.rotateTo sampleAlice 1 "2026-11-16T12:00:00Z" none true) = some (sampleAlice, 1) by
          decide +kernel] at added
      exact (Prod.mk.inj (Option.some.inj added)).2.symm
    rw [second, keysOf, entries_insert] at member
    split at member
    · cases member with
      | tail _ later => cases later
    · cases member
  · rintro ⟨principal, key, added, -⟩
    cases added

/-- Rotating back to the first key leaves two entries for it, and a file that is refused. -/
theorem backAndForth_bricks :
    ¬∃ reloaded, load sampleCrypto
      (save sampleCrypto (stateOf (perform sampleCrypto) ∅ backAndForth)) = .ok reloaded := by
  rintro ⟨reloaded, loaded⟩
  have healthy : Healthy (stateOf (perform sampleCrypto) ∅ backAndForth) :=
    perform_healthy _ (perform_healthy _ (perform_healthy _ (IsInitial.healthy sampleCrypto (.inl rfl)).1 _) _) _
  have distinct := distinct_of_load healthy loaded
  have twice : ¬(keysOf (stateOf (perform sampleCrypto) ∅ backAndForth) sampleAlice).Nodup := by
    decide +kernel
  exact twice (distinct.within sampleAlice)

end Famp.Keyring
