import WServer.Library.Projections
import WServer.ServerSteps

/-!
# The life of one connection in the server

Whatever the threads do, a connection changes by its own actions only: an event reported for it, a functor
or a handler called on it, the expiry of its timer.  So what each action keeps holds of every connection in
every state of the server, together with what its own actions have told so far.

* `Action` — the actions, and `actionOn` — the one in a step of the server;
* `Step.object` — what becomes of a connection in a step;
* `told_object` — the lifting rule.
-/

namespace WServer

open Library.Runs TcpConnection

/-- What the server does with a connection. -/
inductive Action where
  | reported (revents : Events)
  | established
  | destroyed
  | handler (h : Handler) (rs : ReadScript) (ws : WriteScript) (now : List UInt8)
  | expired

namespace Action

/-- When it may be done. -/
def May : Action → TcpConnection → Prop
  | .reported revents, c => c.Reports revents
  | .handler h _ _ _, c => h.Called c.channel.revents
  | .expired, c => 0 < c.timers
  | .established, _ | .destroyed, _ => True

def run : Action → TcpConnection → Except Stop TcpConnection
  | .reported revents, c => .ok { c with channel := c.channel.setRevents revents }
  | .established, c => c.connectEstablished
  | .destroyed, c => c.connectDestroyed
  | .handler h rs ws now, c => h.call rs (c.writes ws) now c
  | .expired, c => closeLongConnection { c with timers := c.timers - 1 }

end Action

namespace TcpServer

variable {n : ℕ} {s s' : TcpServer n} {id : ℕ} {conn : Connection n} {e : ServerEvent n}

/-- The next handler of an event, if the events of the channel ask for it. -/
def handlerOn (id : ℕ) (s : TcpServer n) (rs : ReadScript) (ws : WriteScript) (now : List UInt8) :
    Option (ℕ × Handler) → Option Action
  | none => none
  | some (i, h) =>
      match s.objects i with
      | none => none
      | some conn =>
          if i = id ∧ h.Called conn.tcp.channel.revents then some (.handler h rs ws now) else none

/-- A functor that is a member of a connection. -/
def memberOn (id : ℕ) : Option IoFunctor → Option Action
  | some (.connectEstablished i) => if i = id then some .established else none
  | some (.connectDestroyed i) => if i = id then some .destroyed else none
  | some .handleTimeoutEvents | none => none

/-- **The action** on the connection of a number in a step of the server. -/
def actionOn (id : ℕ) (s : TcpServer n) : ServerEvent n → Option Action
  | .io l e => memberOn id ((s.io l).loop.called e)
  | .poll _ i revents => if i = id then some (.reported revents) else none
  | .handler l rs ws now => s.handlerOn id rs ws now (s.io l).handling
  | .expire _ i => if i = id then some .expired else none
  | .main _ | .accept _ _ | .destroy | .release _ | .timerRead _ | .destruct _ => none

/-- What becomes of the connection of a number in a step with that action on it. -/
inductive Object (s s' : TcpServer n) (id : ℕ) : Option Action → Prop where
  | idle (h : s'.objects id = s.objects id) : Object s s' id none
  | born (fd self : ℕ) (hid : id = s.nextConnId) (hnext : s'.nextConnId = s.nextConnId + 1)
      (h : s'.objects id = some (s.newObject fd self)) : Object s s' id none
  | gone (h : s'.objects id = none) : Object s s' id none
  | acted {conn : Connection n} {a : Action} {c : TcpConnection} (hconn : s.objects id = some conn)
      (hmay : a.May (s.loaded conn)) (hok : a.run (s.loaded conn) = .ok c)
      (h : s'.objects id = some { conn with tcp := c }) : Object s s' id (some a)
  | stuck {conn : Connection n} {a : Action} (hconn : s.objects id = some conn)
      (hstop : a.run (s.loaded conn) = .error .parserLoop) (h : s'.objects id = s.objects id) :
      Object s s' id (some a)

/-! ### One step -/

/-- An action on one connection, seen from any one. -/
theorem Object.of_action {i : ℕ} {a : Action} {c : TcpConnection} (hconn : s.objects i = some conn)
    (hmay : a.May (s.loaded conn)) (hok : a.run (s.loaded conn) = .ok c)
    (h : s'.objects = Function.update s.objects i (some { conn with tcp := c })) :
    Object s s' id (if i = id then some a else none) := by
  by_cases hid : i = id
  · subst hid
    rw [if_pos rfl]
    exact .acted hconn hmay hok (by rw [h, Function.update_self])
  · rw [if_neg hid]
    exact .idle (by rw [h, Function.update_of_ne (Ne.symm hid)])

theorem memberOn_of_callsMember (id : ℕ) {i : ℕ} {f : IoFunctor} {call : Call}
    {member : TcpConnection → Except Stop TcpConnection} (h : CallsMember i f call member) :
    ∃ a : Action, memberOn id (some f) = (if i = id then some a else none) ∧ a.run = member ∧
      ∀ c, a.May c := by
  cases h with
  | established => exact ⟨.established, rfl, rfl, fun _ => trivial⟩
  | destroyed => exact ⟨.destroyed, rfl, rfl, fun _ => trivial⟩

/-- **One step** changes a connection by the action on it. -/
theorem Step.object (h : Step s e s') (id : ℕ) : Object s s' id (s.actionOn id e) := by
  cases h with
  | main | removed | refused | destroyed | released | timerRead => exact .idle rfl
  | @accepted fd self =>
      by_cases hid : id = s.nextConnId
      · refine .born fd self hid rfl ?_
        rw [hid]
        exact Function.update_self _ _ _
      · exact .idle (Function.update_of_ne hid _ _)
  | @io l f loop hpushed hstep hcalled =>
      have hnone : memberOn id ((s.io l).loop.called f) = none := by
        cases hf : (s.io l).loop.called f with
        | none => rfl
        | some functor =>
            rw [hcalled functor hf]
            rfl
      rw [actionOn, hnone]
      exact .idle rfl
  | called hpushed hstep hcalled hmember hconn hok =>
      obtain ⟨a, ha, hrun, hmay⟩ := memberOn_of_callsMember id hmember
      rw [actionOn, hcalled, ha]
      rw [← hrun] at hok
      exact .of_action hconn (hmay _) hok rfl
  | polled hconn hreports => exact .of_action (a := .reported _) hconn hreports rfl rfl
  | @handled rs ws now i h conn c hhandling hconn hcalled hok =>
      simp only [actionOn, handlerOn, hhandling, hconn, hcalled, and_true]
      exact .of_action (a := .handler h rs ws now) hconn hcalled hok rfl
  | @skipped l rs ws now i h conn hhandling hconn hcalled =>
      simp only [actionOn, handlerOn, hhandling, hconn, hcalled, and_false, if_false]
      exact .idle rfl
  | @stuck rs ws now i h conn hhandling hconn hcalled hstop =>
      simp only [actionOn, handlerOn, hhandling, hconn, hcalled, and_true]
      by_cases hid : i = id
      · subst hid
        rw [if_pos rfl]
        exact .stuck (a := .handler h rs ws now) hconn hstop rfl
      · rw [if_neg hid]
        exact .idle rfl
  | expired hconn htimers hok => exact .of_action (a := .expired) hconn htimers hok rfl
  | @freed i conn hconn hstate hunreferenced =>
      by_cases hid : id = i
      · refine .gone ?_
        rw [hid]
        exact Function.update_self _ _ _
      · exact .idle (Function.update_of_ne hid _ _)

theorem Step.nextConnId (h : Step s e s') : s.nextConnId ≤ s'.nextConnId := by
  cases h with
  | accepted => exact Nat.le_succ _
  | main | removed | refused | destroyed | released | io | called | polled | handled | skipped | stuck
  | timerRead | expired | freed => exact le_rfl

/-! ### Whole runs -/

section

variable {δ : Type*} {tell : TcpConnection → Action → List δ} {R : List δ → TcpConnection → Prop}

/-- What the action of a step on the connection of a number tells. -/
def toldBy (tell : TcpConnection → Action → List δ) (id : ℕ) (s : TcpServer n) (e : ServerEvent n) :
    List δ :=
  match s.objects id, s.actionOn id e with
  | some conn, some a => tell (s.loaded conn) a
  | some _, none | none, _ => []

/-- What a connection has told, and its state: nothing before it is made. -/
structure Told (R : List δ → TcpConnection → Prop) (id : ℕ) (ds : List δ) (s : TcpServer n) : Prop where
  unborn : s.nextConnId ≤ id → s.objects id = none ∧ ds = []
  related : ∀ conn, s.objects id = some conn → R ds conn.tcp

/-- The relation is kept by every action, also by one that does not come to an end. -/
structure KeptByActions (tell : TcpConnection → Action → List δ) (R : List δ → TcpConnection → Prop) :
    Prop where
  init : ∀ self fd ep, R [] (TcpConnection.init self fd ep)
  epoll : ∀ ds c ep, R ds c → R ds { c with epoll := ep }
  step : ∀ ds c a c', R ds c → a.May c → a.run c = .ok c' → R (ds ++ tell c a) c'
  stuck : ∀ ds c a, R ds c → a.run c = .error .parserLoop → R (ds ++ tell c a) c

theorem told_step (hR : KeptByActions tell R) {ds : List δ} (h : Told R id ds s) (hstep : Step s e s') :
    Told R id (ds ++ toldBy tell id s e) s' := by
  have hobject := hstep.object id
  generalize ha : s.actionOn id e = action at hobject
  constructor
  · intro hid
    obtain ⟨hnone, hds⟩ := h.unborn (hstep.nextConnId.trans hid)
    have htold : toldBy tell id s e = [] := by simp only [toldBy, hnone]
    rw [htold, hds]
    cases hobject with
    | idle heq => exact ⟨heq.trans hnone, rfl⟩
    | born _ _ hborn hnext => omega
    | gone heq => exact ⟨heq, rfl⟩
    | acted hconn | stuck hconn => rw [hnone] at hconn; cases hconn
  · intro conn hconn'
    cases hobject with
    | idle heq =>
        rw [heq] at hconn'
        have htold : toldBy tell id s e = [] := by simp only [toldBy, hconn', ha]
        rw [htold, List.append_nil]
        exact h.related conn hconn'
    | born _ _ hborn hnext heq =>
        obtain ⟨hnone, hds⟩ := h.unborn (le_of_eq hborn.symm)
        have htold : toldBy tell id s e = [] := by simp only [toldBy, hnone]
        rw [heq] at hconn'
        cases hconn'
        rw [htold, hds]
        exact hR.init _ _ _
    | gone heq =>
        rw [heq] at hconn'
        cases hconn'
    | acted hconn hmay hok heq =>
        rw [heq] at hconn'
        cases hconn'
        simp only [toldBy, hconn, ha]
        exact hR.step _ _ _ _ (hR.epoll _ _ _ (h.related _ hconn)) hmay hok
    | stuck hconn hstop heq =>
        rw [heq, hconn] at hconn'
        cases hconn'
        simp only [toldBy, hconn, ha]
        have hloaded : R ds (s.loaded conn) := hR.epoll _ _ _ (h.related _ hconn)
        exact hR.epoll _ (s.loaded conn) conn.tcp.epoll (hR.stuck _ _ _ hloaded hstop)

/-- **The lifting rule.**  In every interleaving, what every action keeps holds of every connection, with
what its own actions have told. -/
theorem told_object (hR : KeptByActions tell R) {name : List Char} {es : List (ServerEvent n)}
    (hrun : runFrom serverStep (init name) es = .ok s) (hconn : s.objects id = some conn) :
    R (traceOf serverStep (toldBy tell id) (init name) es) conn.tcp := by
  have hinit : Told R id [] (init name : TcpServer n) :=
    ⟨fun _ => ⟨rfl, rfl⟩, fun _ hnone => by cases hnone⟩
  have htold := related_traceOf (R := Told R id)
    (fun ds s e s' h _ hstep => told_step hR h (serverStep_cases hstep)) hinit (along_true _ es) hrun
  rw [List.nil_append] at htold
  exact htold.related conn hconn

end

end TcpServer

end WServer
