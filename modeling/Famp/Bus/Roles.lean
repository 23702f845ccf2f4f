import Famp.Bus.Membership

/-!
# Roles

A role is stored under the name of a channel and of a member, apart from the
membership itself.  `leave` removes both.  `disconnect` and the reaping of `tick`
remove the membership and keep the role, and a `Register` under another name
leaves the role with a name that its session has given up; in both cases the role
is shown for whoever holds the name next.
-/

set_option autoImplicit false

namespace Famp.Bus

open Famp.Core Json Data Std

def RolesListed (s : BrokerState) : Prop :=
  ∀ channel member role, s.channelRoles[(channel, member)]? = some role → Listed s channel member

def hasRole (s : BrokerState) (name : String) : Bool :=
  s.channelRoles.toList.any fun entry => entry.1.2 == name

def holdsRole (s : BrokerState) (client : ClientId) : Bool :=
  s.clients[client]?.any fun state => state.name.any (hasRole s)

/-- The input ends the session of a connection that holds a role. -/
def endsRole (s : BrokerState) (call : Call) : Bool :=
  match call.input with
  | .disconnect client => holdsRole s client
  | .tick => (deadClients call.env s).any (holdsRole s)
  | _ => false

/-- The input binds another name to a connection that holds a role. -/
def renamesRole (K : Text) (s : BrokerState) (call : Call) : Bool :=
  match call.input with
  | .wire client (.register name pid _ _ _) =>
    (s.clients[client]?.any fun state =>
        state.name.any fun held => held != name && hasRole s held) &&
      registerAccepts K call.env s client name pid
  | _ => false

theorem hasRole_iff (s : BrokerState) (name : String) :
    hasRole s name = true ↔ ∃ (channel role : String), s.channelRoles[(channel, name)]? = some role := by
  unfold hasRole
  rw [any_toList_iff s.channelRoles fun key _ => key.2 == name]
  constructor
  · rintro ⟨⟨channel, member⟩, role, stored, same⟩
    obtain rfl := beq_iff_eq.mp same
    exact ⟨channel, role, stored⟩
  · rintro ⟨channel, role, stored⟩
    exact ⟨(channel, name), role, stored, beq_self_eq_true name⟩

theorem holdsRole_iff (s : BrokerState) (client : ClientId) :
    holdsRole s client = true ↔ ∃ state name, s.clients[client]? = some state ∧
      state.name = some name ∧ hasRole s name = true := by
  unfold holdsRole
  rw [Option.any_eq_true]
  constructor
  · rintro ⟨state, stored, any⟩
    obtain ⟨name, named, role⟩ := (Option.any_eq_true _ _).mp any
    exact ⟨state, name, stored, named, role⟩
  · rintro ⟨state, name, stored, named, role⟩
    exact ⟨state, stored, (Option.any_eq_true _ _).mpr ⟨name, named, role⟩⟩

variable {s s' : BrokerState} {K : Text} {channel member role : String} {client : ClientId}
  {call : Call} {trace : List (Event BrokerState Call (List Out))} {env : BrokerEnv}
  {outs : List Out}

variable {name : String} {holder : ClientId} {input : BrokerInput} {now : Nat}

theorem holdsRole_of_holdsName (held : HoldsName s client name) (role : hasRole s name = true) :
    holdsRole s client = true := by
  obtain ⟨state, stored, _, named⟩ := held
  exact (holdsRole_iff s client).mpr ⟨state, name, stored, named, role⟩

/-! ## Roles under each kind of step -/

theorem rolesListed_of_quiet (quiet : Quiet s s') : RolesListed s' ↔ RolesListed s := by
  simp only [RolesListed, quiet.roles, listed_of_quiet quiet]

theorem lookup_commitJoin_roles (s : BrokerState) (channel name : String) (holder : ClientId)
    (role : Option String) (offset : Nat) (key : String × String) :
    (commitJoin s channel name holder role offset).channelRoles[key]? =
      if (channel, name) = key then role.or s.channelRoles[key]? else s.channelRoles[key]? := by
  cases role with
  | none => simp [commitJoin]
  | some declared =>
    simp only [commitJoin, lookup_insert, Option.some_or]

theorem RolesListed.join (listed : RolesListed s) (channel name : String) (holder : ClientId)
    (role : Option String) (offset : Nat) :
    RolesListed (commitJoin s channel name holder role offset) := by
  intro other member declared stored
  rw [listed_commitJoin]
  rw [lookup_commitJoin_roles] at stored
  split at stored
  · rename_i same
    cases same
    exact Or.inr ⟨rfl, rfl⟩
  · exact Or.inl (listed other member declared stored)

theorem RolesListed.leave (listed : RolesListed s) (channel name : String) (holder : ClientId) :
    RolesListed (commitLeave s channel name holder) := by
  intro other member declared stored
  rw [listed_commitLeave]
  simp only [commitLeave, lookup_erase] at stored
  split at stored
  · cases stored
  · rename_i differ
    refine ⟨listed other member declared stored, ?_⟩
    rintro ⟨rfl, rfl⟩
    exact differ rfl

theorem holdsName_disconnect (s : BrokerState) (client id : ClientId) (name : String) :
    HoldsName (disconnect s client).1 id name ↔ client ≠ id ∧ HoldsName s id name := by
  simp only [HoldsName, disconnect_clients, lookup_erase]
  by_cases same : client = id
  · simp [same]
  · simp [same]

theorem holdsName_reap : ∀ (dead : List ClientId) (acc : BrokerState × List Out) (id : ClientId)
    (name : String),
    HoldsName (dead.foldl disconnectStep acc).1 id name ↔ id ∉ dead ∧ HoldsName acc.1 id name
  | [], _, _, _ => by simp
  | client :: rest, acc, id, name => by
    rw [List.foldl_cons, holdsName_reap rest]
    change id ∉ rest ∧ HoldsName (disconnect acc.1 client).1 id name ↔ _
    rw [holdsName_disconnect, List.mem_cons, not_or, and_left_comm, and_assoc, ne_comm]

theorem reap_channelRoles : ∀ (dead : List ClientId) (acc : BrokerState × List Out),
    (dead.foldl disconnectStep acc).1.channelRoles = acc.1.channelRoles
  | [], _ => rfl
  | client :: rest, acc => by
    rw [List.foldl_cons, reap_channelRoles rest]
    exact disconnect_channelRoles acc.1 client

theorem listed_reap : ∀ (dead : List ClientId) (acc : BrokerState × List Out),
    StateInvariant acc.1 → ∀ channel name,
      (Listed (dead.foldl disconnectStep acc).1 channel name ↔
        Listed acc.1 channel name ∧ ∀ client ∈ dead, ¬HoldsName acc.1 client name)
  | [], _, _, _, _ => by simp
  | client :: rest, acc, inv, channel, name => by
    have reaped := listed_reap rest (disconnectStep acc client) (inv.disconnect client) channel name
    rw [List.foldl_cons, reaped, List.forall_mem_cons]
    change Listed (disconnect acc.1 client).1 channel name ∧
      (∀ other ∈ rest, ¬HoldsName (disconnect acc.1 client).1 other name) ↔ _
    rw [listed_disconnect inv]
    constructor
    · rintro ⟨⟨listed, free⟩, others⟩
      refine ⟨listed, free, ?_⟩
      intro other member holder
      have differ : client ≠ other := fun same => free (same ▸ holder)
      exact others other member ((holdsName_disconnect _ _ _ _).mpr ⟨differ, holder⟩)
    · rintro ⟨listed, free, others⟩
      refine ⟨⟨listed, free⟩, ?_⟩
      intro other member holder
      exact others other member ((holdsName_disconnect _ _ _ _).mp holder).2

theorem rolesListed_reap_iff (acc : BrokerState × List Out) (inv : StateInvariant acc.1)
    (listed : RolesListed acc.1) (dead : List ClientId) :
    RolesListed (dead.foldl disconnectStep acc).1 ↔
      ∀ client ∈ dead, holdsRole acc.1 client = false := by
  constructor
  · intro still client member
    rw [Bool.eq_false_iff]
    intro role
    obtain ⟨state, name, stored, named, role⟩ := (holdsRole_iff acc.1 client).mp role
    obtain ⟨channel, declared, storedRole⟩ := (hasRole_iff acc.1 name).mp role
    rw [← reap_channelRoles dead acc] at storedRole
    have kept := still channel name declared storedRole
    exact ((listed_reap dead acc inv channel name).mp kept).2 client member
      ⟨state, stored, (inv.live client state stored).2, named⟩
  · intro free channel name declared storedRole
    rw [reap_channelRoles] at storedRole
    refine (listed_reap dead acc inv channel name).mpr
      ⟨listed channel name declared storedRole, ?_⟩
    intro client member held
    have role := holdsRole_of_holdsName held
      ((hasRole_iff acc.1 name).mpr ⟨channel, declared, storedRole⟩)
    rw [free client member] at role
    cases role

theorem rolesListed_step_iff (listed : RolesListed s) (inv : StateInvariant s)
    (taken : Transition K call.env s call.input s') : RolesListed s' ↔ endsRole s call = false := by
  generalize asked : call.input = input at taken
  unfold endsRole
  rw [asked]
  cases taken with
  | quiet quiet => exact iff_of_true ((rolesListed_of_quiet quiet).mpr listed) rfl
  | hello _ _ => exact iff_of_true listed rfl
  | register _ _ _ _ _ _ => exact iff_of_true listed rfl
  | join quiet _ _ _ _ =>
    have before := (rolesListed_of_quiet quiet).mpr listed
    exact iff_of_true (RolesListed.join before _ _ _ _ _) rfl
  | leave quiet _ _ =>
    have before := (rolesListed_of_quiet quiet).mpr listed
    exact iff_of_true (RolesListed.leave before _ _ _) rfl
  | @disconnect client =>
    have reaped := rolesListed_reap_iff (s, []) inv listed [client]
    rw [List.forall_mem_singleton] at reaped
    exact reaped
  | tick quiet =>
    have reaped := rolesListed_reap_iff (s, []) inv listed (deadClients call.env s)
    rw [rolesListed_of_quiet quiet, reaped, List.any_eq_false]
    simp only [Bool.not_eq_true]

/-! ## Roles and the sessions that declared them -/

/-- In some event of the history a connection that acted for `member` joined the
channel with the role and was answered with `JoinOk`, and from then on the
connection `holder` has held the name without a break. -/
def DeclaredInSession (trace : List (Event BrokerState Call (List Out))) (holder : ClientId)
    (member channel role : String) : Prop :=
  ∃ (earlier : List (Event BrokerState Call (List Out))) (event : Event BrokerState Call (List Out))
    (later : List (Event BrokerState Call (List Out))) (client : ClientId)
    (members : List MemberInfo) (drained : List StampedEnvelope),
    trace = earlier ++ event :: later ∧
      event.input.input = .wire client (.join channel (some role)) ∧
      resolveOpIdentity event.input.env event.before client = .ok member ∧
      Out.reply client (.joinOk channel members drained) ∈ event.output ∧
      HoldsName event.before holder member ∧ HoldsName event.after holder member ∧
      ∀ next ∈ later, HoldsName next.after holder member

theorem DeclaredInSession.snoc (declared : DeclaredInSession trace holder member channel role)
    {next : Event BrokerState Call (List Out)} (held : HoldsName next.after holder member) :
    DeclaredInSession (trace ++ [next]) holder member channel role := by
  obtain ⟨earlier, event, later, client, members, drained, rfl, asked, resolved, replied, before,
    after, since⟩ := declared
  refine ⟨earlier, event, later ++ [next], client, members, drained, ?_, asked, resolved, replied,
    before, after, ?_⟩
  · rw [List.append_assoc, List.cons_append]
  · intro other member
    rcases List.mem_append.mp member with member | last
    · exact since other member
    · rw [List.mem_singleton.mp last]
      exact held

/-- Every stored role was declared by the session that holds the name now. -/
def RolesDeclared (trace : List (Event BrokerState Call (List Out))) (s : BrokerState) : Prop :=
  ∀ channel member role, s.channelRoles[(channel, member)]? = some role →
    ∃ holder, HoldsName s holder member ∧ DeclaredInSession trace holder member channel role

theorem holdsName_step (inv : StateInvariant s) (stays : endsRole s call = false)
    (keeps : renamesRole K s call = false) (taken : Transition K call.env s call.input s')
    (role : hasRole s member = true) (held : HoldsName s holder member) :
    HoldsName s' holder member := by
  generalize asked : call.input = input at taken
  unfold endsRole at stays
  unfold renamesRole at keeps
  rw [asked] at stays keeps
  cases taken with
  | quiet quiet => exact (quiet.holdsName_iff holder member).mpr held
  | hello fresh _ =>
    obtain ⟨state, stored, held⟩ := held
    refine ⟨state, ?_, held⟩
    simp only [lookup_insert]
    rw [if_neg]
    · exact stored
    · rintro rfl
      simp [stored, (inv.live _ state stored).1] at fresh
  | @register client state name pid cwd listen origin drained stored positive unbound free read
      fits =>
      obtain ⟨found, storedFound, connected, named⟩ := held
      by_cases same : client = holder
      · subst same
        rw [stored, Option.some.injEq] at storedFound
        subst storedFound
        refine ⟨registerClient call.env name pid cwd listen origin drained.nextOffset state, ?_, rfl,
          ?_⟩
        · rw [getElem?_updateClient, if_pos rfl, stored, Option.map_some]
        · have accepted : registerAccepts K call.env s client name pid = true :=
            (registerAccepts_iff ..).mpr
              ⟨positive, ⟨state, stored, unbound⟩, free, drained, read, fits⟩
          simp [accepted, stored, named, role] at keeps
          exact congrArg some keeps.symm
      · exact ⟨found, by rw [getElem?_updateClient, if_neg same, storedFound], connected, named⟩
  | join quiet _ _ _ _ =>
    have before := (quiet.holdsName_iff holder member).mpr held
    refine (holdsName_modify rfl ?_ holder member).mpr before
    exact fun _ => ⟨rfl, rfl⟩
  | leave quiet _ _ =>
    have before := (quiet.holdsName_iff holder member).mpr held
    refine (holdsName_modify rfl ?_ holder member).mpr before
    exact fun _ => ⟨rfl, rfl⟩
  | @disconnect client =>
    refine (holdsName_disconnect s client holder member).mpr ⟨?_, held⟩
    rintro rfl
    have holds := holdsRole_of_holdsName held role
    exact absurd holds (Bool.eq_false_iff.mp stays)
  | tick quiet =>
    refine (quiet.holdsName_iff holder member).mpr ?_
    refine (holdsName_reap (deadClients call.env s) (s, []) holder member).mpr ⟨?_, held⟩
    intro dead
    have holds := holdsRole_of_holdsName held role
    exact (List.any_eq_false.mp stays) holder dead holds

theorem role_of_transition (taken : Transition K env s input s')
    (stored : s'.channelRoles[(channel, member)]? = some role) :
    s.channelRoles[(channel, member)]? = some role ∨
      ∃ (client holder : ClientId), input = .wire client (.join channel (some role)) ∧
        resolveOpIdentity env s client = .ok member ∧ HoldsName s holder member ∧
        HoldsName s' holder member := by
  cases taken with
  | quiet quiet =>
    rw [quiet.roles] at stored
    exact Or.inl stored
  | hello _ _ => exact Or.inl stored
  | register _ _ _ _ _ _ => exact Or.inl stored
  | @join t client holder joined name declared drained quiet resolved holds _ _ =>
    rw [lookup_commitJoin_roles, quiet.roles] at stored
    split at stored
    · rename_i same
      obtain ⟨rfl, rfl⟩ := Prod.mk.inj same
      cases declared with
      | none => exact Or.inl stored
      | some declared =>
        obtain rfl : declared = role := by simpa using stored
        have before : HoldsName t holder name := HoldsName.of_canonicalHolderId holds
        refine Or.inr ⟨client, holder, rfl, ?_, (quiet.holdsName_iff _ _).mp before, ?_⟩
        · rw [← quiet.resolveOpIdentity_eq env, resolved]
        · refine (holdsName_modify rfl ?_ holder name).mpr before
          exact fun _ => ⟨rfl, rfl⟩
    · exact Or.inl stored
  | leave quiet _ _ =>
    simp only [commitLeave, lookup_erase, quiet.roles] at stored
    split at stored
    · cases stored
    · exact Or.inl stored
  | disconnect =>
    rw [disconnect_channelRoles] at stored
    exact Or.inl stored
  | tick quiet =>
    rw [quiet.roles, reap_channelRoles] at stored
    exact Or.inl stored

theorem joinOk_or_quiet {role : Option String}
    (handled : Handled K env s now (.wire client (.join channel role)) s' outs) :
    Quiet s s' ∨ ∃ members drained, Out.reply client (.joinOk channel members drained) ∈ outs := by
  cases handled with
  | refused same _ =>
    rcases same with rfl | rfl
    · exact Or.inl (Quiet.refl _)
    · exact Or.inl (touchActivity_quiet env s client)
  | report change _ => exact Or.inl change.quiet
  | join _ _ _ _ _ => exact Or.inr ⟨_, _, List.mem_cons_self ..⟩

theorem RolesDeclared.step (declared : RolesDeclared trace s) (inv : StateInvariant s)
    (stays : endsRole s call = false) (keeps : renamesRole K s call = false)
    (taken : handle K call.env s call.input call.now = some (s', outs)) :
    RolesDeclared (trace ++ [⟨s, call, outs, s'⟩]) s' := by
  intro channel member role stored
  have handled := handle_handled taken
  have old : s.channelRoles[(channel, member)]? = some role → ∃ holder,
      HoldsName s' holder member ∧
        DeclaredInSession (trace ++ [⟨s, call, outs, s'⟩]) holder member channel role := by
    intro before
    obtain ⟨holder, held, session⟩ := declared channel member role before
    have kept := holdsName_step inv stays keeps handled.transition
      ((hasRole_iff s member).mpr ⟨channel, role, before⟩) held
    exact ⟨holder, kept, session.snoc kept⟩
  rcases role_of_transition handled.transition stored with before | ⟨client, holder, asked,
    resolved, held, kept⟩
  · exact old before
  · rw [asked] at handled
    rcases joinOk_or_quiet handled with quiet | ⟨members, drained, replied⟩
    · rw [quiet.roles] at stored
      exact old stored
    · exact ⟨holder, kept, trace, ⟨s, call, outs, s'⟩, [], client, members, drained, rfl, asked,
        resolved, replied, held, kept, by simp⟩

theorem RolesDeclared.of_run (run : (brokerMachine K).Run trace s)
    (keeps : ∀ event ∈ trace, endsRole event.before event.input = false ∧
      renamesRole K event.before event.input = false) : RolesDeclared trace s := by
  refine run.history_of_allowed (fun event => endsRole event.before event.input = false ∧
    renamesRole K event.before event.input = false) RolesDeclared ?_ ?_ keeps
  · rintro _ ⟨startedAt, rfl⟩ channel member role stored
    simp [BrokerState.new] at stored
  · intro trace s call outs s' run declared allowed taken
    exact declared.step (StateInvariant.of_run run) allowed.1 allowed.2 taken

/-! ## The roles that a join shows -/

theorem role_of_prospectiveMembers {declared : Option String}
    (shown : ⟨member, some role⟩ ∈ prospectiveMembers s channel name declared) :
    (if (channel, name) = (channel, member) then declared.or s.channelRoles[(channel, member)]?
      else s.channelRoles[(channel, member)]?) = some role := by
  obtain ⟨listed, _, same⟩ := List.mem_map.mp shown
  obtain ⟨rfl, roles⟩ := MemberInfo.mk.inj same
  rw [← roles]
  simp only [Prod.mk.injEq, true_and, @eq_comm _ name listed]

theorem joinOk_roles (handled : Handled K env s now input s' outs) {members : List MemberInfo}
    {drained : List StampedEnvelope}
    (replied : Out.reply client (.joinOk channel members drained) ∈ outs) :
    ∀ member role, ⟨member, some role⟩ ∈ members →
      s'.channelRoles[(channel, member)]? = some role := by
  cases handled with
  | refused _ refusal =>
    obtain ⟨_, rfl⟩ := Out.reply.inj (List.mem_singleton.mp replied)
    cases refusal
  | report _ report =>
    obtain rfl := List.mem_singleton.mp replied
    cases report
  | hello _ _ => simp at replied
  | register _ _ _ _ _ _ => simp at replied
  | send _ resolved own canonical small stamps =>
    rcases send_outs resolved own canonical small stamps _ replied with append | wake | ⟨_, answer⟩
    · cases append
    · cases wake
    · cases answer
  | inbox _ _ _ _ _ _ => simp at replied
  | await _ _ _ drained =>
    rcases awaitLoop_outs drained with ⟨_, _, rfl⟩ | ⟨_, _, _, rfl⟩
    · simp at replied
    · simp at replied
  | park _ _ _ _ _ => simp at replied
  | join _ _ _ _ _ =>
    simp only [List.mem_cons, Out.reply.injEq, BusReply.joinOk.injEq] at replied
    rcases replied with ⟨_, rfl, rfl, _⟩ | other
    · intro member role shown
      rw [lookup_commitJoin_roles]
      exact role_of_prospectiveMembers shown
    · simp at other
  | leave _ _ _ => simp at replied
  | disconnect => exact absurd (disconnect_outs _ _ _ replied) (by simp [Out.isSessionEnd])
  | tick =>
    rcases tick_outs _ _ _ _ replied with ended | wake
    · cases ended
    · cases wake

/-- Every stored role belongs to a listed member in all states of a run exactly
when no step ends a session that holds a role.  If besides no step renames such a
session, the role that a `JoinOk` shows for a member was declared, when joining,
by the session that holds the member's name at that moment. -/
theorem roles_follow_sessions {K : Text} {trace : List (Event BrokerState Call (List Out))}
    {s : BrokerState} (run : (brokerMachine K).Run trace s) :
    ((RolesListed s ∧ ∀ event ∈ trace, RolesListed event.before) ↔
        ∀ event ∈ trace, endsRole event.before event.input = false) ∧
      ((∀ event ∈ trace, endsRole event.before event.input = false ∧
          renamesRole K event.before event.input = false) →
        ∀ (earlier : List (Event BrokerState Call (List Out)))
          (event : Event BrokerState Call (List Out))
          (later : List (Event BrokerState Call (List Out))) (client : ClientId) (channel : String)
          (members : List MemberInfo) (drained : List StampedEnvelope) (member role : String),
          trace = earlier ++ event :: later →
          Out.reply client (.joinOk channel members drained) ∈ event.output →
          ⟨member, some role⟩ ∈ members →
            ∃ holder, HoldsName event.after holder member ∧
              DeclaredInSession (earlier ++ [event]) holder member channel role) := by
  constructor
  · refine run.everywhere_iff (fun event => endsRole event.before event.input = false) RolesListed
      ?_ ?_
    · rintro _ ⟨startedAt, rfl⟩ channel member role stored
      simp [BrokerState.new] at stored
    · intro trace s call outs s' run listed taken
      exact rolesListed_step_iff listed (StateInvariant.of_run run) (handle_transition taken)
  · intro keeps earlier event later client channel members drained member role split replied shown
    obtain ⟨before, taken⟩ := run.split split
    have upTo : (brokerMachine K).Run (earlier ++ [event]) event.after := before.step taken
    have declared := RolesDeclared.of_run upTo fun other member => keeps other (by
      rw [split]
      rcases List.mem_append.mp member with member | last
      · exact List.mem_append_left _ member
      · rw [List.mem_singleton.mp last]
        exact List.mem_append_right _ (List.mem_cons_self ..))
    exact declared channel member role
      (joinOk_roles (handle_handled taken) replied member role shown)

/-- A member with a role leaves the channel before its session ends, and another
session takes its name. -/
def politeCalls : List Call :=
  [.wire 1 (.hello 3 "cli" none), .wire 1 (.register "alice" 11 none false none),
    .wire 1 (.join "#a" (some "driver")), .wire 1 (.leave "#a"), .disconnect 1,
    .wire 2 (.hello 3 "cli" none), .wire 2 (.register "alice" 12 none false none)].map
    fun input => ⟨emptyEnv, input, 5⟩

/-- The new session joins with a role of its own. -/
def scribeCall : Call := ⟨emptyEnv, .wire 2 (.join "#a" (some "scribe")), 5⟩

theorem politeCalls_roles :
    RolesListed (stateAfter Plain.text (BrokerState.new 0) (politeCalls ++ [scribeCall])) ∧
      ∃ holder, DeclaredInSession
        (eventsOf Plain.text (BrokerState.new 0) (politeCalls ++ [scribeCall])) holder "alice" "#a"
        "scribe" := by
  have facts := roles_follow_sessions (run_calls Plain.text 0 (politeCalls ++ [scribeCall]))
  have keeps : ∀ event ∈ eventsOf Plain.text (BrokerState.new 0) (politeCalls ++ [scribeCall]),
      endsRole event.before event.input = false ∧
        renamesRole Plain.text event.before event.input = false := by decide +kernel
  refine ⟨(facts.1.mpr fun event member => (keeps event member).1).1, ?_⟩
  rw [eventsOf_append] at facts keeps ⊢
  obtain ⟨holder, _, declared⟩ := facts.2 keeps _ _ [] 2 "#a" [⟨"alice", some "scribe"⟩] []
    "alice" "scribe" rfl (by decide +kernel) (by decide)
  exact ⟨holder, declared⟩

/-- A member with a role disconnects, and another session takes its name. -/
def leftoverCalls : List Call :=
  [.wire 1 (.hello 3 "cli" none), .wire 1 (.register "alice" 11 none false none),
    .wire 1 (.join "#a" (some "driver")), .disconnect 1,
    .wire 2 (.hello 3 "cli" none), .wire 2 (.register "alice" 12 none false none)].map
    fun input => ⟨emptyEnv, input, 5⟩

/-- The role is still stored when the channel has no members, and the session that
takes the name and joins without a role is shown with it. -/
theorem leftoverCalls_role_outlives_session :
    let s := stateAfter Plain.text (BrokerState.new 0) leftoverCalls
    (brokerMachine Plain.text).Run (eventsOf Plain.text (BrokerState.new 0) leftoverCalls) s ∧
      ¬RolesListed s ∧ ¬Listed s "#a" "alice" ∧
      s.channelRoles[("#a", "alice")]? = some "driver" ∧
      Out.reply 2 (.joinOk "#a" [⟨"alice", some "driver"⟩] []) ∈
        (respond Plain.text s ⟨emptyEnv, .wire 2 (.join "#a" none), 5⟩).2 := by
  have stored : (stateAfter Plain.text (BrokerState.new 0)
      leftoverCalls).channelRoles[("#a", "alice")]? = some "driver" := by decide +kernel
  have unlisted : ¬Listed (stateAfter Plain.text (BrokerState.new 0) leftoverCalls) "#a" "alice" := by
    decide +kernel
  refine ⟨run_calls Plain.text 0 leftoverCalls, ?_, unlisted, stored, by decide +kernel⟩
  exact fun listed => unlisted (listed "#a" "alice" "driver" stored)

end Famp.Bus
