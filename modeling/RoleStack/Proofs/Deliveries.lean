import RoleStack.Notice

/-!
# What listeners are told

Requests to a dispatcher are followed through what each of them led to: which listeners were told
something, and which subscriptions each of them made meanwhile. A listener hears a notice once for each
of its subscriptions that was made before the notice was fired and that wants its identity, be it made
by a request or by a listener that was being told an earlier notice.
-/

namespace RoleStack

namespace NoticeBoard

variable {board : NoticeBoard} {hub : Ref Dispatcher} {subscriptions : List Subscription}

/-! ### Subscriptions -/

/-- The dispatcher passes on what it is told, and these are its subscriptions. -/
def Passing (board : NoticeBoard) (dispatcher : Ref Dispatcher)
    (subscriptions : List Subscription) : Prop :=
  board.dispatchers.get? dispatcher = some (.passing subscriptions)

def subscriptionsAt (board : NoticeBoard) (dispatcher : Ref Dispatcher) : List Subscription :=
  ((board.dispatchers.get? dispatcher).map Dispatcher.subscriptions).getD []

/-- Those of the subscriptions that are made at the dispatcher. -/
def madeAt (dispatcher : Ref Dispatcher) (made : List (Ref Dispatcher × Subscription)) :
    List Subscription :=
  (made.filter fun entry => entry.1 = dispatcher).map Prod.snd

@[simp]
theorem madeAt_nil (dispatcher : Ref Dispatcher) : madeAt dispatcher [] = [] := rfl

@[simp]
theorem madeAt_append (dispatcher : Ref Dispatcher) (made more : List (Ref Dispatcher × Subscription)) :
    madeAt dispatcher (made ++ more) = madeAt dispatcher made ++ madeAt dispatcher more := by
  rw [madeAt, List.filter_append, List.map_append, madeAt, madeAt]

namespace Passing

theorem subscriptionsAt_eq (h : board.Passing hub subscriptions) :
    board.subscriptionsAt hub = subscriptions := by
  rw [subscriptionsAt, show board.dispatchers.get? hub = _ from h]
  rfl

theorem addSubscription (h : board.Passing hub subscriptions) (other : Ref Dispatcher)
    (subscription : Subscription) :
    (board.addSubscription other subscription).Passing hub
      (subscriptions ++ madeAt hub [(other, subscription)]) := by
  have hfound : board.dispatchers.get? hub = _ := h
  unfold Passing NoticeBoard.addSubscription
  by_cases hsame : other = hub
  · subst hsame
    rw [hfound]
    simpa [madeAt, Dispatcher.subscribe] using Pool.get?_set_of_get? hfound _
  · cases board.dispatchers.get? other with
    | none => simpa [madeAt, hsame] using hfound
    | some found => simpa [Pool.get?_set, madeAt, hsame] using hfound

theorem addSubscriptions (h : board.Passing hub subscriptions)
    (made : List (Ref Dispatcher × Subscription)) :
    (board.addSubscriptions made).Passing hub
      (subscriptions ++ madeAt hub made) := by
  induction made generalizing board subscriptions with
  | nil => rwa [madeAt_nil, List.append_nil]
  | cons entry rest ih =>
      have hrest := ih (h.addSubscription entry.1 entry.2)
      rwa [List.append_assoc, ← madeAt_append, List.singleton_append] at hrest

theorem mention (h : board.Passing hub subscriptions) (name : String) (made : Listener) :
    (board.mention name made).Passing hub subscriptions := by
  unfold NoticeBoard.mention
  split
  · exact h
  · exact h

theorem subscribe (h : board.Passing hub subscriptions) (other : Ref Dispatcher)
    (subscription : Subscription) (child : Option String) :
    (board.subscribe other subscription child).Passing hub
      (subscriptions ++ madeAt hub [(other, subscription)]) := by
  cases child with
  | none => exact (h.mention _ _).addSubscription other subscription
  | some child => exact ((h.mention _ _).mention _ _).addSubscription other subscription

end Passing

/-! ### Listeners -/

@[simp]
theorem listener_addSubscription (board : NoticeBoard) (dispatcher : Ref Dispatcher)
    (subscription : Subscription) (name : String) :
    (board.addSubscription dispatcher subscription).listener name = board.listener name := by
  unfold addSubscription
  split
  · rfl
  · rfl

@[simp]
theorem listener_addSubscriptions (board : NoticeBoard)
    (made : List (Ref Dispatcher × Subscription)) (name : String) :
    (board.addSubscriptions made).listener name = board.listener name := by
  induction made generalizing board with
  | nil => rfl
  | cons entry rest ih => exact (ih _).trans (listener_addSubscription ..)

theorem heard_mention (board : NoticeBoard) {made : Listener} (h : made.heard = [])
    (name other : String) :
    ((board.mention name made).listener other).heard = (board.listener other).heard := by
  unfold mention
  split
  · rfl
  · rename_i hnew
    simp only [listener, Table.get?_insert]
    split
    · rename_i hsame
      subst hsame
      have hnone : board.listeners.get? name = none := by simpa [Table.contains] using hnew
      rw [hnone, Option.getD_some, h]
      rfl
    · rfl

theorem heard_subscribe (board : NoticeBoard) (dispatcher : Ref Dispatcher)
    (subscription : Subscription) (child : Option String) (name : String) :
    ((board.subscribe dispatcher subscription child).listener name).heard =
      (board.listener name).heard := by
  cases child with
  | none => rw [subscribe, listener_addSubscription, heard_mention _ rfl]
  | some child =>
      rw [subscribe, listener_addSubscription, heard_mention _ rfl, heard_mention _ rfl]

/-- The subscriptions that the listener makes if it is the next to be told the notice. -/
def reactionTo (board : NoticeBoard) (notice : Notice) (name : String) :
    List (Ref Dispatcher × Subscription) :=
  let listener := (board.listener name).hear notice
  listener.reaction listener.heard

theorem Passing.tell (h : board.Passing hub subscriptions) (notice : Notice) (name : String) :
    (board.tell notice name).Passing hub
      (subscriptions ++ madeAt hub (board.reactionTo notice name)) := by
  apply Passing.addSubscriptions
  exact h

theorem listener_tell (board : NoticeBoard) (notice : Notice) (name other : String) :
    (board.tell notice name).listener other =
      if name = other then (board.listener name).hear notice else board.listener other := by
  rw [tell, listener_addSubscriptions]
  simp only [listener, Table.get?_insert]
  split
  · rfl
  · rfl

/-! ### Telling several listeners -/

/-- Tells the listeners one after the other, as often as they are named. -/
def tellAll (board : NoticeBoard) (notice : Notice) (names : List String) : NoticeBoard :=
  names.foldl (fun board name => board.tell notice name) board

/-- A listener is told something, and makes these subscriptions meanwhile. -/
structure Call where
  listener : String
  made : List (Ref Dispatcher × Subscription)

def callsOf (board : NoticeBoard) (notice : Notice) : List String → List Call
  | [] => []
  | name :: rest =>
      ⟨name, board.reactionTo notice name⟩ :: (board.tell notice name).callsOf notice rest

section Telling

variable (notice : Notice) (names : List String)

@[simp]
theorem map_listener_callsOf (board : NoticeBoard) :
    (board.callsOf notice names).map Call.listener = names := by
  induction names generalizing board with
  | nil => rfl
  | cons name rest ih => rw [callsOf, List.map_cons, ih]

theorem made_of_callsOf_eq {earlier later : List Call} {call : Call}
    (h : board.callsOf notice names = earlier ++ call :: later) :
    call.made =
      (board.tellAll notice (earlier.map Call.listener)).reactionTo notice call.listener := by
  induction names generalizing board earlier with
  | nil => simp [callsOf] at h
  | cons name rest ih =>
      cases earlier with
      | nil =>
          obtain ⟨rfl, -⟩ := List.cons.inj h
          rfl
      | cons first earlier =>
          obtain ⟨rfl, hrest⟩ := List.cons.inj h
          have hmade := ih hrest
          exact hmade

theorem Passing.tellAll (h : board.Passing hub subscriptions) :
    (board.tellAll notice names).Passing hub
      (subscriptions ++ madeAt hub ((board.callsOf notice names).flatMap Call.made)) := by
  induction names generalizing board subscriptions with
  | nil => rwa [callsOf, List.flatMap_nil, madeAt_nil, List.append_nil]
  | cons name rest ih =>
      have hrest := ih (h.tell notice name)
      rwa [List.append_assoc, ← madeAt_append] at hrest

theorem heard_tellAll (board : NoticeBoard) (name : String) :
    ((board.tellAll notice names).listener name).heard =
      (board.listener name).heard ++ List.replicate (names.count name) notice := by
  induction names generalizing board with
  | nil => rw [List.count_nil, List.replicate_zero, List.append_nil]; rfl
  | cons first rest ih =>
      have hrest := ih (board.tell notice first)
      rw [listener_tell] at hrest
      rw [tellAll, List.foldl_cons]
      refine hrest.trans ?_
      by_cases hsame : first = name
      · rw [if_pos hsame, hsame, List.count_cons_self, List.replicate_succ, Listener.hear,
          List.append_assoc, List.singleton_append]
      · rw [if_neg hsame, List.count_cons_of_ne hsame]

end Telling

theorem fire_of_passing (h : board.Passing hub subscriptions) (identity : Identity)
    (notice : Notice) :
    board.fire hub identity notice =
      let targets := subscriptions.filter fun subscription => subscription.wants identity
      (targets.length, board.tellAll notice (targets.map Subscription.listener)) := by
  have hfound : board.dispatchers.get? hub = _ := h
  rw [fire, hfound]
  simp only [tellAll, List.foldl_map]

/-! ### Requests -/

inductive Request where
  | subscribe (dispatcher : Ref Dispatcher) (subscription : Subscription) (child : Option String)
  | fire (dispatcher : Ref Dispatcher) (identity : Identity) (notice : Notice)

namespace Request

def dispatcher : Request → Ref Dispatcher
  | .subscribe dispatcher _ _ | .fire dispatcher _ _ => dispatcher

/-- The subscription that is asked for. -/
def asked : Request → List (Ref Dispatcher × Subscription)
  | .subscribe dispatcher subscription _ => [(dispatcher, subscription)]
  | .fire .. => []

end Request

/-- Answers with the number of subscriptions then, or of those that the notice was passed on to. -/
def take (board : NoticeBoard) : Request → Nat × NoticeBoard
  | .subscribe dispatcher subscription child =>
      let next := board.subscribe dispatcher subscription child
      (next.subscriptionCount dispatcher, next)
  | .fire dispatcher identity notice => board.fire dispatcher identity notice

def takeAll (board : NoticeBoard) : List Request → List Nat × NoticeBoard
  | [] => ([], board)
  | request :: rest =>
      let (answer, next) := board.take request
      let (answers, last) := next.takeAll rest
      (answer :: answers, last)

/-- What a request led to. -/
structure Episode where
  request : Request
  answer : Nat
  /-- The listeners that were told something, in order. -/
  calls : List Call

/-- By the request and by the listeners that were told something. -/
def Episode.made (episode : Episode) : List (Ref Dispatcher × Subscription) :=
  episode.request.asked ++ episode.calls.flatMap Call.made

def callsFor (board : NoticeBoard) : Request → List Call
  | .subscribe .. => []
  | .fire dispatcher identity notice =>
      board.callsOf notice (((board.subscriptionsAt dispatcher).filter fun subscription =>
        subscription.wants identity).map Subscription.listener)

def episode (board : NoticeBoard) (request : Request) : Episode :=
  ⟨request, (board.take request).1, board.callsFor request⟩

def record (board : NoticeBoard) : List Request → List Episode
  | [] => []
  | request :: rest => board.episode request :: (board.take request).2.record rest

/-- The subscriptions at the dispatcher after these episodes. -/
def subscribedAfter (board : NoticeBoard) (front : List Episode) (dispatcher : Ref Dispatcher) :
    List Subscription :=
  board.subscriptionsAt dispatcher ++ madeAt dispatcher (front.flatMap Episode.made)

/-- What a request has the listener hear, given the subscriptions at each dispatcher. -/
def Request.due (subscribed : Ref Dispatcher → List Subscription) (name : String) :
    Request → List Notice
  | .subscribe .. => []
  | .fire dispatcher identity notice =>
      List.replicate ((subscribed dispatcher).countP fun subscription =>
        subscription.listener = name && subscription.wants identity) notice

/-- What the later episodes have the listener hear after the ones in front. -/
def due (board : NoticeBoard) (name : String) (front : List Episode) : List Episode → List Notice
  | [] => []
  | episode :: rest =>
      episode.request.due (board.subscribedAfter front) name ++
        board.due name (front ++ [episode]) rest

/-- The request is to a dispatcher that passes on what it is told. -/
def Request.Reaches (board : NoticeBoard) (request : Request) : Prop :=
  ∃ subscriptions, board.Passing request.dispatcher subscriptions

section Requests

variable {request : Request} {requests : List Request} {name : String}

theorem Passing.take (h : board.Passing hub subscriptions) (hreaches : request.Reaches board) :
    (board.take request).2.Passing hub
      (subscriptions ++ madeAt hub (board.episode request).made) := by
  cases request with
  | subscribe dispatcher subscription child =>
      simpa [NoticeBoard.take, Episode.made, episode, callsFor, Request.asked] using
        h.subscribe dispatcher subscription child
  | fire dispatcher identity notice =>
      obtain ⟨targets, htargets⟩ := hreaches
      have htargets : board.Passing dispatcher targets := htargets
      rw [NoticeBoard.take, fire_of_passing htargets, Episode.made, episode, callsFor,
        htargets.subscriptionsAt_eq, Request.asked, List.nil_append]
      exact h.tellAll notice _

theorem Request.Reaches.take {other : Request} (h : other.Reaches board)
    (hreaches : request.Reaches board) : other.Reaches (board.take request).2 := by
  obtain ⟨subscriptions, hpassing⟩ := h
  exact ⟨_, hpassing.take hreaches⟩

theorem heard_take (hreaches : request.Reaches board) (name : String) :
    ((board.take request).2.listener name).heard =
      (board.listener name).heard ++ request.due board.subscriptionsAt name := by
  cases request with
  | subscribe dispatcher subscription child =>
      rw [take, heard_subscribe, Request.due, List.append_nil]
  | fire dispatcher identity notice =>
      obtain ⟨targets, htargets⟩ := hreaches
      have htargets : board.Passing dispatcher targets := htargets
      rw [take, fire_of_passing htargets, heard_tellAll, Request.due, htargets.subscriptionsAt_eq]
      congr 2
      rw [List.count_eq_countP, List.countP_map, List.countP_filter]
      rfl

theorem Passing.takeAll (h : board.Passing hub subscriptions)
    (hreach : ∀ request ∈ requests, request.Reaches board) :
    (board.takeAll requests).2.Passing hub
      (subscriptions ++ madeAt hub ((board.record requests).flatMap Episode.made)) := by
  induction requests generalizing board subscriptions with
  | nil => rwa [record, List.flatMap_nil, madeAt_nil, List.append_nil]
  | cons request rest ih =>
      obtain ⟨hreaches, hrest⟩ := List.forall_mem_cons.mp hreach
      have hlast := ih (h.take hreaches) fun other hmem => (hrest other hmem).take hreaches
      rwa [List.append_assoc, ← madeAt_append] at hlast

@[simp]
theorem map_request_record (board : NoticeBoard) (requests : List Request) :
    (board.record requests).map Episode.request = requests := by
  induction requests generalizing board with
  | nil => rfl
  | cons request rest ih => rw [record, List.map_cons, ih]; rfl

theorem map_answer_record (board : NoticeBoard) (requests : List Request) :
    (board.record requests).map Episode.answer = (board.takeAll requests).1 := by
  induction requests generalizing board with
  | nil => rfl
  | cons request rest ih => rw [record, List.map_cons, ih]; rfl

end Requests

/-! ### What an episode goes by -/

section Following

variable {front rest : List Episode} {episode : Episode} {requests : List Request}

/-- The board after these episodes. -/
def after (board : NoticeBoard) (front : List Episode) : NoticeBoard :=
  (board.takeAll (front.map Episode.request)).2

theorem episode_of_record_eq (h : board.record requests = front ++ episode :: rest) :
    front = board.record (front.map Episode.request) ∧
      episode = (board.after front).episode episode.request := by
  induction front generalizing board requests with
  | nil =>
      cases requests with
      | nil => cases h
      | cons request requests =>
          obtain ⟨rfl, -⟩ := List.cons.inj h
          exact ⟨rfl, rfl⟩
  | cons first front ih =>
      cases requests with
      | nil => cases h
      | cons request requests =>
          obtain ⟨rfl, hrest⟩ := List.cons.inj h
          obtain ⟨hfront, hepisode⟩ := ih hrest
          exact ⟨congrArg (List.cons _) hfront, hepisode⟩

theorem subscribedAfter_append (board : NoticeBoard) (front : List Episode)
    (episode : Episode) (dispatcher : Ref Dispatcher) :
    board.subscribedAfter (front ++ [episode]) dispatcher =
      board.subscribedAfter front dispatcher ++ madeAt dispatcher episode.made := by
  rw [subscribedAfter, List.flatMap_append, madeAt_append, ← List.append_assoc,
    List.flatMap_singleton, subscribedAfter]

theorem Passing.after (h : board.Passing hub subscriptions)
    (hfront : front = board.record (front.map Episode.request))
    (hreach : ∀ request ∈ front.map Episode.request, request.Reaches board) :
    (board.after front).Passing hub (board.subscribedAfter front hub) := by
  have hpassing := h.takeAll hreach
  rwa [← hfront, ← h.subscriptionsAt_eq] at hpassing

theorem Passing.subscriptionCount_eq (h : board.Passing hub subscriptions) :
    board.subscriptionCount hub = subscriptions.length := by
  rw [subscriptionCount, show board.dispatchers.get? hub = _ from h]
  rfl

/-- The episode is what its request leads to after the ones in front. -/
def Follows (board : NoticeBoard) (front : List Episode) (episode : Episode) : Prop :=
  match episode.request with
  | .subscribe dispatcher _ _ =>
      episode.calls = [] ∧
        episode.answer = (board.subscribedAfter (front ++ [episode]) dispatcher).length
  | .fire dispatcher identity notice =>
      episode.answer = episode.calls.length ∧
        episode.calls.map Call.listener =
          ((board.subscribedAfter front dispatcher).filter fun subscription =>
            subscription.wants identity).map Subscription.listener ∧
        ((board.after front).take episode.request).2 =
          (board.after front).tellAll notice (episode.calls.map Call.listener) ∧
        ∀ earlier call later, episode.calls = earlier ++ call :: later →
          call.made = ((board.after front).tellAll notice
            (earlier.map Call.listener)).reactionTo notice call.listener

theorem follows_episode {request : Request}
    (hnow : (board.after front).Passing request.dispatcher
      (board.subscribedAfter front request.dispatcher)) :
    board.Follows front ((board.after front).episode request) := by
  cases request with
  | subscribe dispatcher subscription child =>
      refine ⟨rfl, ?_⟩
      rw [subscribedAfter_append]
      exact (hnow.take ⟨_, hnow⟩).subscriptionCount_eq
  | fire dispatcher identity notice =>
      have htargets : (board.after front).subscriptionsAt dispatcher =
          board.subscribedAfter front dispatcher := hnow.subscriptionsAt_eq
      have hcalls : ((board.after front).episode (.fire dispatcher identity notice)).calls =
          (board.after front).callsOf notice
            (((board.subscribedAfter front dispatcher).filter fun subscription =>
              subscription.wants identity).map Subscription.listener) := by
        rw [NoticeBoard.episode, callsFor, htargets]
      have hfire := fire_of_passing hnow identity notice
      refine ⟨?_, ?_, ?_, fun earlier call later hsplit => ?_⟩
      · rw [← List.length_map (f := Call.listener), hcalls, map_listener_callsOf, List.length_map]
        exact congrArg Prod.fst hfire
      · rw [hcalls, map_listener_callsOf]
      · rw [hcalls, map_listener_callsOf]
        exact congrArg Prod.snd hfire
      · rw [hcalls] at hsplit
        exact made_of_callsOf_eq notice _ hsplit

theorem follows_of_record_eq (hreach : ∀ request ∈ requests, request.Reaches board)
    (h : board.record requests = front ++ episode :: rest) : board.Follows front episode := by
  obtain ⟨hfront, hepisode⟩ := episode_of_record_eq h
  rw [← map_request_record board requests, h, List.map_append, List.map_cons,
    List.forall_mem_append, List.forall_mem_cons] at hreach
  obtain ⟨hreachFront, ⟨subscriptions, hpassing⟩, -⟩ := hreach
  rw [hepisode]
  exact follows_episode (hpassing.after hfront hreachFront)

/-- The listener hears what is due to it, wherever the run is taken up. -/
theorem heard_takeAll {now : NoticeBoard} (name : String)
    (hnow : ∀ {hub subscriptions}, board.Passing hub subscriptions →
      now.Passing hub (board.subscribedAfter front hub))
    (hreach : ∀ request ∈ requests, request.Reaches board) :
    ((now.takeAll requests).2.listener name).heard =
      (now.listener name).heard ++ board.due name front (now.record requests) := by
  induction requests generalizing now front with
  | nil => rw [record, due, List.append_nil]; rfl
  | cons request rest ih =>
      obtain ⟨⟨subscriptions, hpassing⟩, hrest⟩ := List.forall_mem_cons.mp hreach
      have hreaches : request.Reaches now := ⟨_, hnow hpassing⟩
      have hnext {hub : Ref Dispatcher} {subscriptions : List Subscription}
          (h : board.Passing hub subscriptions) : (now.take request).2.Passing hub
            (board.subscribedAfter (front ++ [now.episode request]) hub) := by
        rw [subscribedAfter_append]
        exact (hnow h).take hreaches
      have hdue : request.due now.subscriptionsAt name =
          request.due (board.subscribedAfter front) name := by
        cases request with
        | subscribe => rfl
        | fire dispatcher identity notice =>
            have hsame : now.subscriptionsAt dispatcher = board.subscribedAfter front dispatcher :=
              (hnow hpassing).subscriptionsAt_eq
            rw [Request.due, Request.due, hsame]
      calc ((now.takeAll (request :: rest)).2.listener name).heard
          = ((now.take request).2.listener name).heard ++
              board.due name (front ++ [now.episode request])
                ((now.take request).2.record rest) := ih hnext hrest
        _ = (now.listener name).heard ++
              (request.due (board.subscribedAfter front) name ++
                board.due name (front ++ [now.episode request])
                  ((now.take request).2.record rest)) := by
            rw [heard_take hreaches, hdue, List.append_assoc]

end Following

/-! ### Listeners hear what they subscribed to -/

/-- Each request leads to one episode, in turn. A subscription tells nobody. A notice is passed on to the
subscriptions for its identity that were made before, by requests or by listeners that were told
something earlier, in the order in which they were made; their number is the answer, and each
listener that is told makes the subscriptions that it wants to, going by what it has heard so far, and
fires nothing itself. So a listener hears each notice once for each of its subscriptions for the identity in front of the notice.
Those that are made while the notice is passed on are too late for it, and count from the next one
on. -/
theorem heard_as_subscribed (board : NoticeBoard) (requests : List Request)
    (hreach : ∀ request ∈ requests, request.Reaches board) :
    let record := board.record requests
    let last := (board.takeAll requests).2
    record.map Episode.request = requests ∧
      record.map Episode.answer = (board.takeAll requests).1 ∧
      (∀ front episode rest, record = front ++ episode :: rest → board.Follows front episode) ∧
      (∀ name, (last.listener name).heard =
        (board.listener name).heard ++ board.due name [] record) ∧
      ∀ hub subscriptions, board.Passing hub subscriptions →
        last.Passing hub (board.subscribedAfter record hub) := by
  intro record last
  have hstart {hub : Ref Dispatcher} {subscriptions : List Subscription}
      (h : board.Passing hub subscriptions) :
      board.Passing hub (board.subscribedAfter [] hub) := by
    rwa [subscribedAfter, List.flatMap_nil, madeAt_nil, List.append_nil, h.subscriptionsAt_eq]
  refine ⟨map_request_record board requests, map_answer_record board requests,
    fun front episode rest => follows_of_record_eq hreach,
    fun name => heard_takeAll name hstart hreach, fun hub subscriptions h => ?_⟩
  rw [subscribedAfter, h.subscriptionsAt_eq]
  exact h.takeAll hreach

section Office

/-- A clerk subscribes to one identity once more when told something for the first time, and has a
scribe hear of all of them. -/
def office : NoticeBoard where
  dispatchers := Pool.empty.add (.passing [])
  listeners := Table.empty.insert "clerk"
    { heard := []
      reaction := fun heard =>
        if heard.length = 1 then [(⟨0⟩, ⟨"clerk", some ⟨1⟩⟩), (⟨0⟩, ⟨"scribe", none⟩)] else [] }

def assumed (identity : Identity) (role : String) : Notice :=
  ⟨.roleAssumed, ⟨identity, .zero, .addRole, role, .success, none⟩⟩

def officeRequests : List Request :=
  [.subscribe ⟨0⟩ ⟨"clerk", none⟩ none, .subscribe ⟨0⟩ ⟨"clerk", some ⟨1⟩⟩ none,
    .fire ⟨0⟩ ⟨1⟩ (assumed ⟨1⟩ "admin"), .fire ⟨0⟩ ⟨2⟩ (assumed ⟨2⟩ "admin"),
    .fire ⟨0⟩ ⟨1⟩ (assumed ⟨1⟩ "auditor")]

theorem heard_as_subscribed_office :
    (∀ request ∈ officeRequests, request.Reaches office) ∧
      (office.record officeRequests).map Episode.answer = [1, 2, 2, 2, 4] ∧
      ((office.takeAll officeRequests).2.listener "clerk").heard =
        [assumed ⟨1⟩ "admin", assumed ⟨1⟩ "admin", assumed ⟨2⟩ "admin", assumed ⟨1⟩ "auditor",
          assumed ⟨1⟩ "auditor", assumed ⟨1⟩ "auditor"] ∧
      ((office.takeAll officeRequests).2.listener "scribe").heard =
        [assumed ⟨2⟩ "admin", assumed ⟨1⟩ "auditor"] := by
  have hreach : ∀ request ∈ officeRequests, request.Reaches office := by
    have hone : ∀ request ∈ officeRequests, request.dispatcher = ⟨0⟩ := by decide
    intro request hmem
    rw [Request.Reaches, hone request hmem]
    exact ⟨[], rfl⟩
  obtain ⟨-, hanswers, -, hheard, -⟩ := heard_as_subscribed office officeRequests hreach
  refine ⟨hreach, ?_, ?_, ?_⟩
  · rw [hanswers]
    decide +kernel
  · rw [hheard]
    decide +kernel
  · rw [hheard]
    decide +kernel

end Office

end NoticeBoard

end RoleStack
