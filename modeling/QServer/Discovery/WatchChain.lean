import QServer.Discovery.AppBase

/-
This file follows the watch of "/online_servers" through the requests that lead to the next one.
-/

namespace QServer

/-- No call stands before itself or before the call that follows it. -/
def ZooCall.Apart (first second : ZooCall) : Prop := first ≠ second ∧ first.next ≠ some second

theorem ZooCall.apart_getChildren {call : ZooCall} (other : call ≠ .getChildren) :
    call.Apart .getChildren :=
  ⟨other, by cases call <;> decide⟩

/-- The call that follows the first one can come after all the others. -/
theorem ZooCall.apart_next {first call following : ZooCall} (apart : first.Apart call)
    (follows : first.next = some following) : call.Apart following := by
  constructor
  · rintro rfl
    exact apart.2 follows
  · intro same
    cases first <;> cases call <;> cases follows <;> cases same
    · exact apart.1 rfl
    · exact apart.1 rfl

theorem ZooCall.next_eq_wGetChildRen {call : ZooCall} (follows : call.next = some .wGetChildRen) :
    call = .getChildren := by
  cases call <;> cases follows
  rfl

/-- Each call stands once in a list that keeps them apart. -/
theorem ZooCall.length_le {calls : List ZooCall} (apart : calls.Pairwise ZooCall.Apart) :
    calls.length ≤ 4 := by
  have distinct : calls.Nodup := apart.imp fun apart => apart.1
  have inside : calls ⊆ [.registerWatch, .create, .getChildren, .wGetChildRen] := by
    intro call _
    cases call <;> decide
  exact (List.subperm_of_subset distinct inside).length_le

/-- The new list contains the children of the answer. -/
theorem getServers_holds (svrList : SvrList) (root : List Wire.Bytes) :
    (getServers svrList root).Holds root.toFinset := by
  have held := (SvrList.Holds.clear svrList).addAll root
  rwa [Finset.empty_union] at held

namespace ZooCompletion

variable (completion : ZooCompletion) {garbage : List Wire.Bytes} {svrList : SvrList}

/-- The server list after the task gets its completion. -/
def store (garbage : List Wire.Bytes) (svrList : SvrList) : SvrList :=
  if completion.request.call = .getChildren then
    getServers svrList (ZooCmd.getChildren garbage 0 (some completion.msg))
  else svrList

theorem store_of_ne (other : completion.request.call ≠ .getChildren) :
    completion.store garbage svrList = svrList :=
  if_neg other

theorem store_eq (lists : completion.request.call = .getChildren) {names : List Wire.Bytes}
    (same : completion.msg = .strings names) :
    completion.store garbage svrList = getServers svrList names := by
  rw [store, if_pos lists, same]
  rfl

end ZooCompletion

namespace ZooKeeper

variable {zoo : ZooKeeper} {svrList : SvrList} {reported : Bool} {request : ZooRequest}
  {rest : List ZooRequest}

/-- The requests whose completion the client has not got, in the order of the requests. -/
def pending (zoo : ZooKeeper) : List ZooRequest :=
  zoo.completions.map ZooCompletion.request ++ zoo.requests

def fetches (completions : List ZooCompletion) : Nat :=
  completions.countP fun completion => completion.request.call = .getChildren

/-- The number of requests that lead to a watch. -/
def leads (requests : List ZooRequest) : Nat :=
  requests.countP fun request => request.call ≠ .create

/-- The watch, and all that leads to the next one. -/
def pulses (zoo : ZooKeeper) : Nat :=
  zoo.childWatch.toNat + zoo.childEvents + fetches zoo.completions + leads zoo.requests

section Counts

@[simp] theorem fetches_nil : fetches [] = 0 := rfl

@[simp] theorem fetches_append (first second : List ZooCompletion) :
    fetches (first ++ second) = fetches first + fetches second :=
  List.countP_append

@[simp] theorem fetches_cons (completion : ZooCompletion) (rest : List ZooCompletion) :
    fetches (completion :: rest) =
      fetches rest + if completion.request.call = .getChildren then 1 else 0 := by
  simp [fetches, List.countP_cons]

theorem fetches_pos {completions : List ZooCompletion} {completion : ZooCompletion}
    (member : completion ∈ completions) (call : completion.request.call = .getChildren) :
    0 < fetches completions :=
  List.countP_pos_iff.mpr ⟨completion, member, by simpa using call⟩

@[simp] theorem leads_nil : leads [] = 0 := rfl

@[simp] theorem leads_append (first second : List ZooRequest) :
    leads (first ++ second) = leads first + leads second :=
  List.countP_append

@[simp] theorem leads_cons (request : ZooRequest) (rest : List ZooRequest) :
    leads (request :: rest) = leads rest + if request.call = .create then 0 else 1 := by
  by_cases creates : request.call = .create <;> simp [leads, creates]

theorem leads_pos {requests : List ZooRequest} {request : ZooRequest}
    (member : request ∈ requests) (other : request.call ≠ .create) : 0 < leads requests :=
  List.countP_pos_iff.mpr ⟨request, member, by simpa using other⟩

end Counts

/-- The registration has its watch and has not created its node. -/
def Registering (zoo : ZooKeeper) : Prop :=
  (∃ completion ∈ zoo.completions, completion.request.call = .registerWatch) ∨
    ∃ request ∈ zoo.requests, request.call = .create

theorem not_registering (completions : zoo.completions = []) (requests : zoo.requests = []) :
    ¬zoo.Registering := by
  rintro (⟨_, member, _⟩ | ⟨_, member, _⟩)
  · rw [completions] at member
    cases member
  · rw [requests] at member
    cases member

/-- The task that got the completion makes its next request. -/
def follow (zoo : ZooKeeper) (coId : CoId) : Option ZooCall → ZooKeeper
  | some call => zoo.submit ⟨coId, call⟩
  | none => zoo

/-- One watch, event or request leads to the next watch, and with a watch the list is right. -/
structure Sound (zoo : ZooKeeper) (svrList : SvrList) (reported : Bool) : Prop where
  apart : (zoo.pending.map ZooRequest.call).Pairwise ZooCall.Apart
  unreported : reported = false → zoo.pending = []
  pulses : zoo.pulses = reported.toNat
  listed : ∀ completion ∈ zoo.completions, completion.request.call = .getChildren →
    ∃ names, completion.msg = .strings names ∧ names.toFinset = zoo.listed
  stored : ∀ request ∈ zoo.requests, request.call = .wGetChildRen → svrList.Holds zoo.listed
  armed : zoo.childWatch = true → zoo.Registering ∨ svrList.Holds zoo.children

theorem Sound.empty : ZooKeeper.empty.Sound SvrList.empty false := by
  constructor
  · exact List.Pairwise.nil
  · exact fun _ => rfl
  · rfl
  · intro completion member
    cases member
  · intro request member
    cases member
  · intro armed
    cases armed

theorem Sound.pulses_le (sound : zoo.Sound svrList reported) : zoo.pulses ≤ 1 := by
  rw [sound.pulses]
  exact Bool.toNat_le reported

/-- While a request leads to the next watch, there is none. -/
theorem Sound.unarmed (sound : zoo.Sound svrList reported) (member : request ∈ zoo.requests)
    (other : request.call ≠ .create) : zoo.childWatch = false := by
  have leading := leads_pos member other
  have one := sound.pulses_le
  rw [ZooKeeper.pulses] at one
  cases armed : zoo.childWatch with
  | false => rfl
  | true =>
      rw [armed, Bool.toNat_true] at one
      omega

theorem change_pulses (children : Finset Wire.Bytes) :
    (zoo.change children).pulses = zoo.pulses := by
  unfold change pulses
  cases zoo.childWatch
  · rfl
  · simp only [Bool.toNat_false, Bool.toNat_true, if_true]
    omega

/-- A change that nobody watches has been seen already. -/
theorem Sound.change (sound : zoo.Sound svrList reported) (children : Finset Wire.Bytes) :
    (zoo.change children).Sound svrList reported := by
  refine ⟨sound.apart, sound.unreported, (change_pulses children).trans sound.pulses, sound.listed,
    sound.stored, fun armed => ?_⟩
  cases armed

theorem answer_pending (taken : zoo.requests = request :: rest) (msg : ZooMsg) :
    (zoo.answer request rest msg).pending = zoo.pending := by
  simp [pending, answer, taken]

/-- A creation answers the registration and changes the children. -/
theorem Sound.created (sound : zoo.Sound svrList reported) (taken : zoo.requests = request :: rest)
    (call : request.call = .create) (children : Finset Wire.Bytes) :
    ((zoo.answer request rest .value).change children).Sound svrList reported := by
  have samePending := answer_pending taken .value
  refine ⟨?_, ?_, ?_, ?_, ?_, ?_⟩
  · exact samePending ▸ sound.apart
  · exact samePending ▸ sound.unreported
  · rw [change_pulses, ← sound.pulses]
    simp [ZooKeeper.pulses, answer, taken, call]
  · intro completion member fetched
    rcases List.mem_append.mp member with old | new
    · exact sound.listed completion old fetched
    · rw [List.mem_singleton.mp new, call] at fetched
      cases fetched
  · intro other member
    exact sound.stored other (by rw [taken]; exact List.mem_cons_of_mem _ member)
  · intro armed
    cases armed

/-- An answer to `GetChildren` lists the children. -/
theorem Sound.listing (sound : zoo.Sound svrList reported) (taken : zoo.requests = request :: rest)
    (call : request.call = .getChildren) {order : List Wire.Bytes}
    (whole : order.toFinset = zoo.children) :
    { zoo.answer request rest (.strings order) with listed := zoo.children }.Sound svrList
      reported := by
  have samePending := answer_pending taken (.strings order)
  have member : request ∈ zoo.requests := by simp [taken]
  have unarmed := sound.unarmed member (by simp [call])
  have one := sound.pulses_le
  rw [ZooKeeper.pulses, taken, leads_cons, call, if_neg (by decide)] at one
  refine ⟨?_, ?_, ?_, ?_, ?_, ?_⟩
  · exact samePending ▸ sound.apart
  · exact samePending ▸ sound.unreported
  · rw [← sound.pulses]
    simp only [ZooKeeper.pulses, answer, taken, fetches_append, fetches_cons, fetches_nil,
      leads_cons, call, reduceCtorEq, if_true, if_false]
    omega
  · intro completion member fetched
    rcases List.mem_append.mp member with old | new
    · have fetching := fetches_pos old fetched
      omega
    · rw [List.mem_singleton.mp new]
      exact ⟨order, rfl, whole⟩
  · intro other member rearms
    have leading : 0 < leads rest := leads_pos member (by simp [rearms])
    omega
  · intro armed
    change zoo.childWatch = true at armed
    rw [unarmed] at armed
    cases armed

/-- A new watch is set by the registration, or it misses no change. -/
theorem Sound.watching (sound : zoo.Sound svrList reported) (taken : zoo.requests = request :: rest)
    (creates : request.call ≠ .create) (lists : request.call ≠ .getChildren)
    (unmissed : request.call = .wGetChildRen →
      SvrList.typedNames zoo.listed = SvrList.typedNames zoo.children) (order : List Wire.Bytes) :
    { zoo.answer request rest (.strings order) with childWatch := true }.Sound svrList
      reported := by
  have samePending := answer_pending taken (.strings order)
  have member : request ∈ zoo.requests := by simp [taken]
  have unarmed := sound.unarmed member creates
  refine ⟨?_, ?_, ?_, ?_, ?_, fun _ => ?_⟩
  · exact samePending ▸ sound.apart
  · exact samePending ▸ sound.unreported
  · rw [← sound.pulses]
    simp only [ZooKeeper.pulses, answer, taken, fetches_append, fetches_cons, fetches_nil,
      leads_cons, creates, lists, unarmed, Bool.toNat_true, Bool.toNat_false, if_false]
    omega
  · intro completion member fetched
    rcases List.mem_append.mp member with old | new
    · exact sound.listed completion old fetched
    · rw [List.mem_singleton.mp new] at fetched
      exact absurd fetched lists
  · intro other member
    exact sound.stored other (by rw [taken]; exact List.mem_cons_of_mem _ member)
  · by_cases rearms : request.call = .wGetChildRen
    · exact Or.inr ((sound.stored request member rearms).of_typedNames (unmissed rearms))
    · have registers : request.call = .registerWatch := by
        cases call : request.call with
        | registerWatch => rfl
        | create => exact absurd call creates
        | getChildren => exact absurd call lists
        | wGetChildRen => exact absurd call rearms
      exact Or.inl (Or.inl ⟨⟨request, .strings order⟩, by simp [answer], registers⟩)

/-- A request that ZooKeeper takes keeps the list right if no change is missed. -/
theorem Sound.process (sound : zoo.Sound svrList reported) {selfId : Wire.Bytes}
    {order : List Wire.Bytes} {next : ZooKeeper}
    (unmissed : ∀ request, zoo.requests.head? = some request → request.call = .wGetChildRen →
      SvrList.typedNames zoo.listed = SvrList.typedNames zoo.children)
    (processed : zoo.process selfId order = some next) : next.Sound svrList reported := by
  obtain ⟨request, rest, taken, done⟩ := process_cases processed
  cases done with
  | created creates absent => exact sound.created taken creates _
  | listed lists whole => exact sound.listing taken lists whole
  | watched creates lists whole =>
      exact sound.watching taken creates lists (unmissed request (by rw [taken]; rfl)) order

theorem process_pending {selfId : Wire.Bytes} {order : List Wire.Bytes} {next : ZooKeeper}
    (processed : zoo.process selfId order = some next) : next.pending = zoo.pending := by
  obtain ⟨request, rest, taken, done⟩ := process_cases processed
  cases done with
  | created creates absent => exact answer_pending taken .value
  | listed lists whole => exact answer_pending taken (.strings order)
  | watched creates lists whole => exact answer_pending taken (.strings order)

/-- The registration is the first to make a request. -/
theorem Sound.report (sound : zoo.Sound svrList false) (coId : CoId) :
    (zoo.submit ⟨coId, .registerWatch⟩).Sound svrList true := by
  have none := sound.unreported rfl
  obtain ⟨completions, requests⟩ := List.append_eq_nil_iff.mp none
  have completions := List.map_eq_nil_iff.mp completions
  have quiet := sound.pulses
  simp only [ZooKeeper.pulses, completions, requests, fetches_nil, leads_nil, Bool.toNat_false]
    at quiet
  have unarmed : zoo.childWatch.toNat = 0 := by omega
  refine ⟨?_, ?_, ?_, ?_, ?_, ?_⟩
  · simp [pending, submit, completions, requests]
  · rintro ⟨⟩
  · simp [ZooKeeper.pulses, submit, completions, requests, quiet]
  · intro completion member
    rw [submit, completions] at member
    cases member
  · intro request member rearms
    rw [submit, requests, List.nil_append] at member
    rw [List.mem_singleton.mp member] at rearms
    cases rearms
  · intro armed
    change zoo.childWatch = true at armed
    rw [armed] at unarmed
    cases unarmed

/-- While a child event waits, no request for the children does. -/
theorem unlisted (one : zoo.pulses ≤ 1) {childEvents : Nat}
    (fired : zoo.childEvents = childEvents + 1) :
    ∀ call ∈ zoo.pending.map ZooRequest.call, call ≠ .getChildren := by
  rw [ZooKeeper.pulses, fired] at one
  intro call member
  obtain ⟨request, inside, rfl⟩ := List.mem_map.mp member
  intro lists
  rw [pending, List.mem_append] at inside
  rcases inside with completed | waiting
  · obtain ⟨completion, held, rfl⟩ := List.mem_map.mp completed
    have fetching := fetches_pos held lists
    omega
  · have leading := leads_pos waiting (by simp [lists])
    omega

theorem apart_submit (apart : (zoo.pending.map ZooRequest.call).Pairwise ZooCall.Apart)
    (coId : CoId) {next : ZooCall}
    (other : ∀ call ∈ zoo.pending.map ZooRequest.call, call.Apart next) :
    ((zoo.submit ⟨coId, next⟩).pending.map ZooRequest.call).Pairwise ZooCall.Apart := by
  have submitted := List.pairwise_append.mpr ⟨apart, List.pairwise_singleton _ _,
    fun call member last single => by
      rw [List.mem_singleton.mp single]
      exact other call member⟩
  simpa [pending, submit] using submitted

/-- A child event starts the only `GetServers` that has not listed the children. -/
theorem Sound.watcher (sound : zoo.Sound svrList reported) {childEvents : Nat}
    (fired : zoo.childEvents = childEvents + 1) (coId : CoId) :
    (({ zoo with childEvents } : ZooKeeper).submit ⟨coId, .getChildren⟩).Sound svrList
      reported := by
  have other := unlisted sound.pulses_le fired
  have known : 0 < reported.toNat := by
    rw [← sound.pulses, ZooKeeper.pulses, fired]
    omega
  refine ⟨?_, ?_, ?_, sound.listed, ?_, ?_⟩
  · exact @apart_submit { zoo with childEvents } sound.apart coId .getChildren
      fun call member => ZooCall.apart_getChildren (other call member)
  · rintro rfl
    cases known
  · rw [← sound.pulses]
    simp [ZooKeeper.pulses, submit, fired]
    omega
  · intro request member rearms
    rcases List.mem_append.mp member with old | new
    · exact sound.stored request old rearms
    · rw [List.mem_singleton.mp new] at rearms
      cases rearms
  · intro armed
    rcases sound.armed armed with registering | holds
    · refine Or.inl (registering.imp_right fun ⟨request, member, creates⟩ => ?_)
      exact ⟨request, List.mem_append_left _ member, creates⟩
    · exact Or.inr holds

section Follow

variable (coId : CoId) (call : ZooCall)

@[simp] theorem follow_completions :
    (zoo.follow coId call.next).completions = zoo.completions := by
  cases call <;> rfl

@[simp] theorem follow_requests : (zoo.follow coId call.next).requests =
    zoo.requests ++ (call.next.map fun next => ⟨coId, next⟩).toList := by
  cases call <;> simp [follow, ZooCall.next, submit]

@[simp] theorem follow_childWatch : (zoo.follow coId call.next).childWatch = zoo.childWatch := by
  cases call <;> rfl

@[simp] theorem follow_children : (zoo.follow coId call.next).children = zoo.children := by
  cases call <;> rfl

@[simp] theorem follow_childEvents :
    (zoo.follow coId call.next).childEvents = zoo.childEvents := by
  cases call <;> rfl

@[simp] theorem follow_listed : (zoo.follow coId call.next).listed = zoo.listed := by
  cases call <;> rfl

theorem follow_pending : (zoo.follow coId call.next).pending =
    zoo.pending ++ (call.next.map fun next => ⟨coId, next⟩).toList := by
  simp [pending]

/-- The second request of `GetServers` leads to the watch, as the answer to the first one did. -/
theorem follow_pulses : (zoo.follow coId call.next).pulses =
    zoo.pulses + if call = .getChildren then 1 else 0 := by
  rw [ZooKeeper.pulses, ZooKeeper.pulses, follow_childWatch, follow_childEvents,
    follow_completions, follow_requests, leads_append, ← Nat.add_assoc]
  congr 1
  cases call <;> rfl

end Follow

section Complete

variable {completion : ZooCompletion} {completions : List ZooCompletion}

theorem pending_of_completions (got : zoo.completions = completion :: completions) :
    zoo.pending = completion.request :: ({ zoo with completions } : ZooKeeper).pending := by
  simp [pending, got]

theorem apart_follow (apart : (zoo.pending.map ZooRequest.call).Pairwise ZooCall.Apart)
    (got : zoo.completions = completion :: completions) :
    (((({ zoo with completions } : ZooKeeper).follow completion.request.coId
      completion.request.call.next).pending).map ZooRequest.call).Pairwise ZooCall.Apart := by
  rw [pending_of_completions got, List.map_cons, List.pairwise_cons] at apart
  rw [follow_pending, List.map_append]
  refine List.pairwise_append.mpr ⟨apart.2, ?_, fun call member last single => ?_⟩
  · cases completion.request.call.next <;> simp
  · obtain ⟨request, known, rfl⟩ := List.mem_map.mp single
    obtain ⟨next, follows, rfl⟩ := Option.map_eq_some_iff.mp (Option.mem_toList.mp known)
    exact ZooCall.apart_next (apart.1 call member) follows

/-- The registration goes on until it creates its node. -/
theorem Registering.follow (registering : zoo.Registering)
    (got : zoo.completions = completion :: completions) :
    (({ zoo with completions } : ZooKeeper).follow completion.request.coId
      completion.request.call.next).Registering := by
  rcases registering with ⟨other, member, registers⟩ | ⟨request, member, creates⟩
  · rw [got] at member
    rcases List.mem_cons.mp member with rfl | later
    · refine Or.inr ⟨⟨other.request.coId, .create⟩, ?_, rfl⟩
      rw [follow_requests, registers]
      simp [ZooCall.next]
    · refine Or.inl ⟨other, ?_, registers⟩
      rw [follow_completions]
      exact later
  · refine Or.inr ⟨request, ?_, creates⟩
    rw [follow_requests]
    exact List.mem_append_left _ member

/-- A completion stores what ZooKeeper listed, and keeps the watch as near as it was. -/
theorem Sound.complete (sound : zoo.Sound svrList reported)
    (got : zoo.completions = completion :: completions) (garbage : List Wire.Bytes) :
    (({ zoo with completions } : ZooKeeper).follow completion.request.coId
      completion.request.call.next).Sound (completion.store garbage svrList) reported := by
  have one := sound.pulses_le
  rw [ZooKeeper.pulses, got, fetches_cons] at one
  refine ⟨apart_follow sound.apart got, ?_, ?_, ?_, ?_, ?_⟩
  · intro unreported
    have none := sound.unreported unreported
    rw [pending_of_completions got] at none
    cases none
  · rw [follow_pulses, ← sound.pulses, ZooKeeper.pulses, ZooKeeper.pulses, got, fetches_cons]
    dsimp only
    omega
  · intro other member fetched
    rw [follow_completions] at member
    rw [follow_listed]
    exact sound.listed other (by rw [got]; exact List.mem_cons_of_mem _ member) fetched
  · intro request member rearms
    rw [follow_listed]
    by_cases lists : completion.request.call = .getChildren
    · obtain ⟨names, same, whole⟩ := sound.listed completion (by simp [got]) lists
      rw [completion.store_eq lists same, ← whole]
      exact getServers_holds svrList names
    · rw [completion.store_of_ne lists]
      rw [follow_requests, List.mem_append] at member
      rcases member with old | new
      · exact sound.stored request old rearms
      · obtain ⟨next, follows, rfl⟩ := Option.map_eq_some_iff.mp (Option.mem_toList.mp new)
        change next = .wGetChildRen at rearms
        subst rearms
        exact absurd (ZooCall.next_eq_wGetChildRen follows) lists
  · intro armed
    rw [follow_childWatch] at armed
    change zoo.childWatch = true at armed
    have other : completion.request.call ≠ .getChildren := by
      intro lists
      rw [armed, if_pos lists, Bool.toNat_true] at one
      omega
    rw [completion.store_of_ne other, follow_children]
    exact (sound.armed armed).imp_left fun registering => registering.follow got

end Complete

end ZooKeeper

end QServer
