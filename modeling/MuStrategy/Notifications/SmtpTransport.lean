import MuStrategy.Lib.DotStuffing
import MuStrategy.Lib.Program
import MuStrategy.Notifications.MailSafety

/-!
# The mail

A mail is one session with an SMTP server. Each of its calls can be answered by any reply, or raise; what was raised
decides the outcome, together with whether the body was begun.

* `SmtpError`, `SmtpOp` — what can be raised, and the calls.
* `SmtpTransport.exchange`, `SmtpTransport.send` — the session.
* `ReachesBody`, `bodyRefusal` — the answers with which the body is begun, and with which it is refused.
* `OutcomeSound`, `SendSound` — what an outcome promises.
* `send_sound_iff` — it is kept unless the body is refused by a reply that is no refusal.
-/

namespace MuStrategy.Notifications

open Lib Prog

/-- Source: `notifications/smtp.py` `SmtpConfig`. -/
structure SmtpConfig where
  host : String
  sender : String
  recipient : String
  authorizationCode : String

/-- What `smtplib`, `ssl` and the operating system raise, with the codes of the replies. -/
inductive SmtpError where
  | authentication (code : ℤ)
  | recipientsRefused (recipients : List (String × ℤ))
  | senderRefused (code : ℤ)
  | dataError (code : ℤ)
  | connectError (code : ℤ)
  | heloError (code : ℤ)
  /-- `ssl.SSLError`. -/
  | ssl
  /-- Any other `SMTPException` or `OSError`. -/
  | other
  deriving DecidableEq

/-- The calls of a session. -/
inductive SmtpOp where
  /-- `factory(host, port, ..)`. -/
  | connect (host : String) (port : ℕ)
  | login (user password : String)
  | mail (sender : String)
  | rcpt (recipient : String)
  | docmd (command : String)
  | sourceIsCurrent
  /-- `clock.now_ms()`. -/
  | nowMs
  | send (payload : List UInt8)
  | getreply
  | close
  deriving DecidableEq

/-- What a call returns; of a reply, its code. -/
def SmtpOp.Value : SmtpOp → Type
  | .connect .. | .login .. | .send _ | .close => Unit
  | .mail _ | .rcpt _ | .docmd _ | .getreply | .nowMs => ℤ
  | .sourceIsCurrent => Bool

/-- A call returns or raises. -/
abbrev SmtpOp.Reply (op : SmtpOp) : Type := Except SmtpError op.Value

/-- A part of a session. What it raises comes with the value of `sending` at that time. -/
abbrev Session (α : Type) : Type := Prog SmtpOp SmtpOp.Reply (Bool × SmtpError) α

/-- A call whose exception is raised. -/
def ask (sending : Bool) (op : SmtpOp) : Session op.Value :=
  .call op fun reply => .done (raiseAs (fun error => (sending, error)) reply)

/-- `if refused: raise error`. -/
def refuseIf (refused : Prop) [Decidable refused] (sending : Bool) (error : SmtpError) : Session Unit :=
  .done (if refused then .error (sending, error) else .ok ())

/-- `client.close()`, whatever it raises. -/
def closeQuietly : Session Unit := .call .close fun _ => .done (.ok ())

/-- A temporary refusal. -/
def isTransient (code : ℤ) : Bool := 400 ≤ code && code < 500

/-- A failure that can be retried. -/
def SendResult.failedWith (code : SendCode) (retryable : Bool := false) : SendResult :=
  ⟨.failed, code, retryable, by decide, fun _ => rfl⟩

/-- A failure, or after the body was begun an unknown outcome. -/
def SendResult.lostWith (sending : Bool) (code : SendCode) : SendResult :=
  ⟨if sending then .unknown else .failed, code, false, by cases sending <;> decide, fun h => by cases h⟩

/-- The result of an exception. Source: `notifications/smtp.py` `SmtpTransport.send`, its handlers. -/
def SmtpError.result (sending : Bool) : SmtpError → SendResult
  | .authentication _ => .failedWith .smtpAuthenticationFailed
  | .recipientsRefused recipients =>
      .failedWith .smtpRecipientRefused (!recipients.isEmpty && recipients.all fun recipient => isTransient recipient.2)
  | .senderRefused code | .dataError code | .connectError code | .heloError code =>
      .failedWith .smtpRejected (isTransient code)
  | .ssl => .lostWith sending .smtpTlsError
  | .other => if sending then .lostWith true .smtpResultUnknown else .failedWith .smtpConnectionFailed true

/-- The codes with which it reports a refusal; `none`: it reports no reply. -/
def SmtpError.codes? : SmtpError → Option (List ℤ)
  | .recipientsRefused recipients => some (recipients.map Prod.snd)
  | .authentication code | .senderRefused code | .dataError code | .connectError code | .heloError code => some [code]
  | .ssl | .other => none

lemma SmtpError.state_result_false (error : SmtpError) : (error.result false).state = .failed := by
  cases error <;> rfl

lemma SmtpError.state_result_true (error : SmtpError) :
    (error.result true).state = if error.codes?.isSome then .failed else .unknown := by
  cases error <;> rfl

namespace SmtpTransport

variable {O : Type} (render : AlertEvent O → List UInt8) (config : SmtpConfig) (event : AlertEvent O)

/-- The check of the deadline: the result, if it is over. -/
def checkDeadline : Session (Option SendResult) :=
  match event.reviewUntilMs with
  | none => pure none
  | some reviewUntilMs => do
      let nowMs : ℤ ← ask false .nowMs
      if event.occurredAtMs ≤ nowMs ∧ nowMs < reviewUntilMs then pure none
      else pure (some (.failedWith .entryReviewExpired))

/-- The checks after all waits, immediately before the body: the result, if no body is to be sent. -/
def lastChecks : Session (Option SendResult) := do
  let current : Bool ← if event.kind = .entryReview then ask false .sourceIsCurrent else pure true
  if current = false then pure (some (.failedWith .entrySourceUnavailable true))
  else checkDeadline event

/-- From the login to the last checks. -/
def envelope : Session (Option SendResult) := do
  ask false (.login config.sender config.authorizationCode)
  let code : ℤ ← ask false (.mail config.sender)
  refuseIf (code ≠ 250) false (.senderRefused code)
  let code : ℤ ← ask false (.rcpt config.recipient)
  refuseIf (code ≠ 250 ∧ code ≠ 251) false (.recipientsRefused [(config.recipient, code)])
  let code : ℤ ← ask false (.docmd "DATA")
  refuseIf (code ≠ 354) false (.dataError code)
  lastChecks event

/-- The body and its reply. -/
def body (payload : List UInt8) : Session SendResult := do
  ask true (.send payload)
  let code : ℤ ← ask true .getreply
  refuseIf (code ≠ 250) true (.dataError code)
  pure ⟨.confirmed, .smtpAccepted, false, confirmed_ne_pending, confirmed_not_retryable⟩

/-- The session behind the connection. -/
def exchange (payload : List UInt8) : Session SendResult := do
  match ← envelope config event with
  | some result => pure result
  | none => body payload

/-- The mail of an event; `source` says whether `source_is_current` is given. The handlers make no calls, so it is the
same whether the connection is closed before or after them.
Fidelity: the rendered message is a parameter. Source: `notifications/smtp.py` `SmtpTransport.send`. -/
def send (source : Bool) : Prog SmtpOp SmtpOp.Reply NotificationError SendResult :=
  if event.kind = .entryReview ∧ source = false then
    .done (.error (.invalid "entry delivery requires current source validation"))
  else
    let session := ask false (.connect config.host 465) >>= fun _ =>
      finally_ (exchange config event (frame (render event))) closeQuietly
    session.andThen fun
      | .ok result => .done (.ok result)
      | .error (sending, error) => .done (.ok (error.result sending))

/-! ## Sessions with a server -/

/-- What a server answers to each call; no call is made twice. -/
abbrev Server : Type := (op : SmtpOp) → op.Reply

variable (server : Server)

/-- The answer to a call, which is noted. -/
def perform (op : SmtpOp) (calls : List SmtpOp) : op.Reply × List SmtpOp := (server op, calls ++ [op])

/-- What is true of the result of a part of a session, and of the calls up to its end. -/
def Ends {α : Type} (p : Session α) (calls : List SmtpOp) (Q : Except (Bool × SmtpError) α → List SmtpOp → Prop) : Prop :=
  Q (run (perform server) p calls).1 (run (perform server) p calls).2

/-- The last checks let the body pass. -/
structure Current : Prop where
  source : event.kind = .entryReview → server .sourceIsCurrent = .ok true
  inTime : ∀ reviewUntilMs, event.reviewUntilMs = some reviewUntilMs →
    ∃ nowMs : ℤ, server .nowMs = .ok nowMs ∧ event.occurredAtMs ≤ nowMs ∧ nowMs < reviewUntilMs

/-- The answers with which the body is begun, once there is a connection. -/
structure Admitted : Prop where
  login : server (.login config.sender config.authorizationCode) = .ok ()
  mail : server (.mail config.sender) = .ok (250 : ℤ)
  rcpt : server (.rcpt config.recipient) = .ok (250 : ℤ) ∨ server (.rcpt config.recipient) = .ok (251 : ℤ)
  data : server (.docmd "DATA") = .ok (354 : ℤ)
  current : Current event server

/-- No byte of a body was passed on. -/
def NoBody (calls : List SmtpOp) : Prop := ∀ payload, .send payload ∉ calls

variable {server} {config} {event}

section ends

variable {α β : Type} {calls : List SmtpOp} {Q : Except (Bool × SmtpError) α → List SmtpOp → Prop}

lemma ends_ask {sending : Bool} {op : SmtpOp} {f : op.Value → Session α}
    (hok : ∀ value, server op = .ok value → Ends server (f value) (calls ++ [op]) Q)
    (herror : ∀ error, server op = .error error → Q (.error (sending, error)) (calls ++ [op])) :
    Ends server (ask sending op >>= f) calls Q := by
  change Q (run (perform server) (andThen (.done (raiseAs _ (server op))) (onValue f)) (calls ++ [op])).1
    (run (perform server) (andThen (.done (raiseAs _ (server op))) (onValue f)) (calls ++ [op])).2
  cases hserver : server op with
  | ok value => exact hok value hserver
  | error error => exact herror error hserver

lemma ends_refuseIf {refused : Prop} [Decidable refused] {sending : Bool} {error : SmtpError} {f : Unit → Session α}
    (hok : ¬ refused → Ends server (f ()) calls Q) (herror : refused → Q (.error (sending, error)) calls) :
    Ends server (refuseIf refused sending error >>= f) calls Q := by
  unfold refuseIf
  split
  · rename_i h
    exact herror h
  · rename_i h
    exact hok h

/-- One part follows on another. -/
lemma Ends.bind {p : Session β} {R : Except (Bool × SmtpError) β → List SmtpOp → Prop} {f : β → Session α}
    (hp : Ends server p calls R) (hok : ∀ value calls', R (.ok value) calls' → Ends server (f value) calls' Q)
    (herror : ∀ error calls', R (.error error) calls' → Q (.error error) calls') : Ends server (p >>= f) calls Q := by
  unfold Ends at hp ⊢
  rw [run_bind]
  rcases hrun : run (perform server) p calls with ⟨_ | _, calls'⟩ <;> rw [hrun] at hp
  · exact herror _ _ hp
  · exact hok _ _ hp

end ends

lemma NoBody.concat {calls : List SmtpOp} (h : NoBody calls) {op : SmtpOp} (hop : ∀ payload, op ≠ .send payload) :
    NoBody (calls ++ [op]) := by
  intro payload hmem
  rcases List.mem_append.mp hmem with hmem | hmem
  · exact h payload hmem
  · exact hop payload (List.mem_singleton.mp hmem).symm

lemma ne_ok_of_error {op : SmtpOp} {error : SmtpError} (h : server op = .error error) (value : op.Value) :
    server op ≠ .ok value := by
  rw [h]
  nofun

lemma ne_ok_of_ok {op : SmtpOp} {value value' : op.Value} (h : server op = .ok value) (hne : value ≠ value') :
    server op ≠ .ok value' := by
  rw [h]
  exact fun heq => hne (Except.ok.inj heq)

/-- What is known in front of the body, which is begun if `admitted`. -/
def BeforeBody (admitted : Prop) (result : Except (Bool × SmtpError) (Option SendResult)) (calls : List SmtpOp) : Prop :=
  NoBody calls ∧ (result = .ok none ∧ admitted ∨ ¬ admitted ∧
    ((∃ failure, result = .ok (some failure) ∧ failure.state = .failed) ∨ ∃ error, result = .error (false, error)))

section before

variable {admitted : Prop} {calls : List SmtpOp}

lemma beforeBody_pass (hcalls : NoBody calls) (h : admitted) : BeforeBody admitted (.ok none) calls :=
  ⟨hcalls, .inl ⟨rfl, h⟩⟩

lemma beforeBody_raised {error : SmtpError} (hcalls : NoBody calls) (h : ¬ admitted) :
    BeforeBody admitted (.error (false, error)) calls :=
  ⟨hcalls, .inr ⟨h, .inr ⟨error, rfl⟩⟩⟩

lemma beforeBody_failed {failure : SendResult} (hcalls : NoBody calls) (hstate : failure.state = .failed)
    (h : ¬ admitted) : BeforeBody admitted (.ok (some failure)) calls :=
  ⟨hcalls, .inr ⟨h, .inl ⟨failure, rfl, hstate⟩⟩⟩

end before

lemma ends_checkDeadline {calls : List SmtpOp} (hcalls : NoBody calls)
    (hsource : event.kind = .entryReview → server .sourceIsCurrent = .ok true) :
    Ends server (checkDeadline event) calls (BeforeBody (Current event server)) := by
  unfold checkDeadline
  cases hreview : event.reviewUntilMs with
  | none => exact beforeBody_pass hcalls ⟨hsource, fun reviewUntilMs h => by rw [hreview] at h; cases h⟩
  | some reviewUntilMs =>
      have hnow : NoBody (calls ++ [.nowMs]) := hcalls.concat nofun
      refine ends_ask (fun (nowMs : ℤ) now => ?_) fun error h => beforeBody_raised hnow fun hall => ?_
      · split
        · rename_i htime
          refine beforeBody_pass hnow ⟨hsource, fun _ h => ⟨nowMs, now, ?_⟩⟩
          rw [hreview, Option.some.injEq] at h
          subst h
          exact htime
        · rename_i htime
          refine beforeBody_failed hnow rfl fun hall => htime ?_
          obtain ⟨nowMs', now', htime'⟩ := hall.inTime reviewUntilMs hreview
          rw [now] at now'
          obtain rfl := Except.ok.inj now'
          exact htime'
      · obtain ⟨nowMs, now, -⟩ := hall.inTime reviewUntilMs hreview
        exact ne_ok_of_error h _ now

lemma ends_lastChecks {calls : List SmtpOp} (hcalls : NoBody calls) :
    Ends server (lastChecks event) calls (BeforeBody (Current event server)) := by
  unfold lastChecks
  by_cases hkind : event.kind = .entryReview
  · rw [if_pos hkind]
    have hasked : NoBody (calls ++ [.sourceIsCurrent]) := hcalls.concat nofun
    refine ends_ask (fun (current : Bool) source => ?_) fun _ h => beforeBody_raised hasked fun hall =>
      ne_ok_of_error h _ (hall.source hkind)
    cases current with
    | false => exact beforeBody_failed hasked rfl fun hall => ne_ok_of_ok source Bool.false_ne_true (hall.source hkind)
    | true => exact ends_checkDeadline hasked fun _ => source
  · rw [if_neg hkind]
    exact ends_checkDeadline hcalls fun h => absurd h hkind

lemma ends_envelope {calls : List SmtpOp} (hcalls : NoBody calls) :
    Ends server (envelope config event) calls (BeforeBody (Admitted config event server)) := by
  have hlogin : NoBody (calls ++ [.login config.sender config.authorizationCode]) := hcalls.concat nofun
  have hmail : NoBody (_ ++ [.mail config.sender]) := hlogin.concat nofun
  have hrcpt : NoBody (_ ++ [.rcpt config.recipient]) := hmail.concat nofun
  have hdata : NoBody (_ ++ [.docmd "DATA"]) := hrcpt.concat nofun
  refine ends_ask (fun _ login => ?_) fun _ h => beforeBody_raised hlogin fun hall => ne_ok_of_error h _ hall.login
  refine ends_ask (fun (code : ℤ) mail => ?_) fun _ h => beforeBody_raised hmail fun hall =>
    ne_ok_of_error h _ hall.mail
  refine ends_refuseIf (fun hcode => ?_) fun h => beforeBody_raised hmail fun hall => ne_ok_of_ok mail h hall.mail
  obtain rfl := not_not.mp hcode
  refine ends_ask (fun (code : ℤ) rcpt => ?_) fun _ h => beforeBody_raised hrcpt fun hall =>
    hall.rcpt.elim (ne_ok_of_error h _) (ne_ok_of_error h _)
  refine ends_refuseIf (fun hcode => ?_) fun h => beforeBody_raised hrcpt fun hall =>
    hall.rcpt.elim (ne_ok_of_ok rcpt h.1) (ne_ok_of_ok rcpt h.2)
  have hrcptCode : server (.rcpt config.recipient) = .ok (250 : ℤ) ∨ server (.rcpt config.recipient) = .ok (251 : ℤ) := by
    rcases not_and_or.mp hcode with h | h
    · exact .inl (rcpt.trans (congrArg _ (not_not.mp h)))
    · exact .inr (rcpt.trans (congrArg _ (not_not.mp h)))
  refine ends_ask (fun (code' : ℤ) data => ?_) fun _ h => beforeBody_raised hdata fun hall =>
    ne_ok_of_error h _ hall.data
  refine ends_refuseIf (fun hcode' => ?_) fun h => beforeBody_raised hdata fun hall => ne_ok_of_ok data h hall.data
  obtain rfl := not_not.mp hcode'
  have hlast : Ends server (lastChecks event) _ (BeforeBody (Current event server)) := ends_lastChecks hdata
  obtain ⟨hnone, ⟨hresult, hcurrent⟩ | ⟨hcurrent, hresult⟩⟩ := hlast
  · exact ⟨hnone, .inl ⟨hresult, login, mail, hrcptCode, data, hcurrent⟩⟩
  · exact ⟨hnone, .inr ⟨fun hall => hcurrent hall.current, hresult⟩⟩

/-! ## The outcome -/

section outcome

variable (server) (payload : List UInt8) (calls : List SmtpOp)

/-- The codes with which a body is refused that was begun: by an exception, or by a reply other than 250. -/
def bodyRefusal : Option (List ℤ) :=
  match server (.send payload) with
  | .error error => error.codes?
  | .ok _ =>
      match server .getreply with
      | .error error => error.codes?
      | .ok (code : ℤ) => if code = 250 then none else some [code]

/-- Replies 4xx and 5xx. -/
def IsRefusal (codes : List ℤ) : Prop := codes ≠ [] ∧ ∀ code ∈ codes, 400 ≤ code ∧ code < 600

/-- The whole body was passed on, and answered 250. -/
structure Delivered : Prop where
  passed : .send payload ∈ calls
  sent : server (.send payload) = .ok ()
  asked : .getreply ∈ calls
  accepted : server .getreply = .ok (250 : ℤ)

/-- No byte of a body was passed on, or the body was answered by 4xx or 5xx. -/
def Refused : Prop := NoBody calls ∨ ∃ codes, bodyRefusal server payload = some codes ∧ IsRefusal codes

/-- What the result of a mail promises. -/
structure OutcomeSound (result : SendResult) : Prop where
  confirmed : result.state = .confirmed → Delivered server payload calls
  failed : result.state = .failed → Refused server payload calls
  otherwise : ¬ Delivered server payload calls → ¬ Refused server payload calls → result.state = .unknown
  retryable : result.retryable = true → result.state = .failed

end outcome

lemma OutcomeSound.of_imp {payload : List UInt8} {calls : List SmtpOp} {result : SendResult}
    (hconfirmed : result.state = .confirmed → Delivered server payload calls)
    (hfailed : result.state = .failed → Refused server payload calls) : OutcomeSound server payload calls result where
  confirmed := hconfirmed
  failed := hfailed
  otherwise hdelivered hrefused := by
    cases hstate : result.state with
    | pending => exact absurd hstate result.not_pending
    | confirmed => exact absurd (hconfirmed hstate) hdelivered
    | failed => exact absurd (hfailed hstate) hrefused
    | unknown => rfl
  retryable := result.failed_of_retryable

/-- The result of what a session returned or raised. -/
def judge : Except (Bool × SmtpError) SendResult → SendResult
  | .ok result => result
  | .error (sending, error) => error.result sending

/-- What is known after the body. -/
def AfterBody (server : Server) (payload : List UInt8) (result : Except (Bool × SmtpError) SendResult)
    (calls : List SmtpOp) : Prop :=
  .send payload ∈ calls ∧
    ((judge result).state = .failed ∧ (bodyRefusal server payload).isSome ∨
      (judge result).state = .unknown ∧ bodyRefusal server payload = none ∨
      (judge result).state = .confirmed ∧ bodyRefusal server payload = none ∧ Delivered server payload calls)

lemma ends_body (payload : List UInt8) (calls : List SmtpOp) :
    Ends server (body payload) calls (AfterBody server payload) := by
  have hraised : ∀ {error : SmtpError} {calls : List SmtpOp}, .send payload ∈ calls →
      bodyRefusal server payload = error.codes? → AfterBody server payload (.error (true, error)) calls := by
    intro error calls hpassed hrefusal
    refine ⟨hpassed, ?_⟩
    rw [hrefusal, judge, error.state_result_true]
    cases error.codes? with
    | none => exact .inr (.inl ⟨rfl, rfl⟩)
    | some codes => exact .inl ⟨rfl, rfl⟩
  have hpassed : .send payload ∈ calls ++ [.send payload] := List.mem_append_right _ List.mem_cons_self
  have hpassed' := List.mem_append_left [SmtpOp.getreply] hpassed
  refine ends_ask (fun _ sent => ?_) fun error h => hraised hpassed (by rw [bodyRefusal, h])
  refine ends_ask (fun (code : ℤ) reply => ?_) fun error h => hraised hpassed' (by rw [bodyRefusal, sent, h])
  have hrefusal : bodyRefusal server payload = if code = 250 then none else some [code] := by
    rw [bodyRefusal, sent, reply]
  refine ends_refuseIf (fun hcode => ?_) fun hcode => hraised hpassed' (hrefusal.trans (if_neg hcode))
  obtain rfl := not_not.mp hcode
  exact ⟨hpassed', .inr (.inr ⟨rfl, hrefusal, hpassed', sent, List.mem_append_right _ List.mem_cons_self, reply⟩)⟩

/-- The session behind the connection, when the body is admitted and when it is not. -/
def AfterExchange (server : Server) (admitted : Prop) (payload : List UInt8)
    (result : Except (Bool × SmtpError) SendResult) (calls : List SmtpOp) : Prop :=
  admitted ∧ AfterBody server payload result calls ∨ ¬ admitted ∧ NoBody calls ∧ (judge result).state = .failed

lemma ends_exchange (payload : List UInt8) {calls : List SmtpOp} (hcalls : NoBody calls) :
    Ends server (exchange config event payload) calls (AfterExchange server (Admitted config event server) payload) := by
  refine Ends.bind (ends_envelope hcalls) (fun early calls' h => ?_) fun error calls' h => ?_
  · obtain ⟨hnone, ⟨hresult, hadmitted⟩ | ⟨hadmitted, ⟨failure, hresult, hstate⟩ | ⟨error, hresult⟩⟩⟩ := h
    · obtain rfl := Except.ok.inj hresult
      exact .inl ⟨hadmitted, ends_body payload calls'⟩
    · obtain rfl := Except.ok.inj hresult
      exact .inr ⟨hadmitted, hnone, hstate⟩
    · cases hresult
  · obtain ⟨hnone, ⟨hresult, -⟩ | ⟨hadmitted, ⟨failure, hresult, -⟩ | ⟨error', hresult⟩⟩⟩ := h
    · cases hresult
    · cases hresult
    · obtain rfl := Except.error.inj hresult
      exact .inr ⟨hadmitted, hnone, error'.state_result_false⟩

/-- Closing the connection changes no result. -/
lemma Ends.closed {α : Type} {p : Session α} {calls : List SmtpOp}
    {Q : Except (Bool × SmtpError) α → List SmtpOp → Prop}
    (h : Ends server p calls fun result calls => Q result (calls ++ [.close])) :
    Ends server (finally_ p closeQuietly) calls Q := by
  unfold Ends at h ⊢
  rw [run_finally]
  exact h

lemma AfterExchange.closed {admitted : Prop} {payload : List UInt8} {result : Except (Bool × SmtpError) SendResult}
    {calls : List SmtpOp} (h : AfterExchange server admitted payload result calls) :
    AfterExchange server admitted payload result (calls ++ [.close]) := by
  rcases h with ⟨hadmitted, hpassed, hstate⟩ | ⟨hadmitted, hnone, hstate⟩
  · refine .inl ⟨hadmitted, List.mem_append_left _ hpassed, hstate.imp id (Or.imp id fun hconfirmed => ?_)⟩
    obtain ⟨hconfirmed, hrefusal, hpassed, hsent, hasked, haccepted⟩ := hconfirmed
    exact ⟨hconfirmed, hrefusal, List.mem_append_left _ hpassed, hsent, List.mem_append_left _ hasked, haccepted⟩
  · exact .inr ⟨hadmitted, hnone.concat nofun, hstate⟩

/-- The answers with which the body is begun. -/
structure ReachesBody (config : SmtpConfig) (event : AlertEvent O) (source : Bool) (server : Server) : Prop where
  source : event.kind = .entryReview → source = true
  connect : server (.connect config.host 465) = .ok ()
  admitted : Admitted config event server

lemma ends_session (payload : List UInt8) :
    Ends server (ask false (.connect config.host 465) >>= fun _ => finally_ (exchange config event payload) closeQuietly) []
      (AfterExchange server (server (.connect config.host 465) = .ok () ∧ Admitted config event server) payload) := by
  have hconnect : NoBody ([] ++ [SmtpOp.connect config.host 465]) := NoBody.concat (fun _ => List.not_mem_nil) nofun
  refine ends_ask (fun _ connect => Ends.closed ?_) fun error h => .inr ⟨fun hall => ne_ok_of_error h _ hall.1, hconnect,
    error.state_result_false⟩
  have hexchange : Ends server (exchange config event payload) _
      (AfterExchange server (Admitted config event server) payload) := ends_exchange payload hconnect
  rcases hexchange with ⟨hadmitted, hbody⟩ | ⟨hadmitted, hnone⟩
  · exact AfterExchange.closed (.inl ⟨⟨connect, hadmitted⟩, hbody⟩)
  · exact AfterExchange.closed (.inr ⟨fun hall => hadmitted hall.2, hnone⟩)

/-- **What a mail ends with**: the body was begun and its answer decides, or it was not begun and the mail failed. -/
theorem send_end {source : Bool} {result : SendResult} {calls : List SmtpOp}
    (h : run (perform server) (send render config event source) [] = (.ok result, calls)) :
    AfterExchange server (ReachesBody config event source server) (frame (render event)) (.ok result) calls := by
  unfold send at h
  split at h
  · cases h
  · rename_i hsource
    have hgiven : event.kind = .entryReview → source = true := by
      intro hkind
      rw [not_and, Bool.not_eq_false] at hsource
      exact hsource hkind
    rw [run_andThen] at h
    have hsession : Ends server (ask false (.connect config.host 465) >>= fun _ =>
        finally_ (exchange config event (frame (render event))) closeQuietly) []
        (AfterExchange server (server (.connect config.host 465) = .ok () ∧ Admitted config event server)
          (frame (render event))) := ends_session (frame (render event))
    unfold Ends at hsession
    rcases hrun : run (perform server) (ask false (.connect config.host 465) >>= fun _ =>
      finally_ (exchange config event (frame (render event))) closeQuietly) [] with ⟨raised, calls'⟩
    rw [hrun] at h hsession
    obtain ⟨rfl, rfl⟩ : judge raised = result ∧ calls' = calls := by
      cases raised <;> exact ⟨Except.ok.inj (congrArg Prod.fst h), congrArg Prod.snd h⟩
    rcases hsession with ⟨⟨hconnect, hadmitted⟩, hbody⟩ | ⟨hadmitted, hnone⟩
    · exact .inl ⟨⟨hgiven, hconnect, hadmitted⟩, hbody⟩
    · exact .inr ⟨fun hall => hadmitted ⟨hall.connect, hall.admitted⟩, hnone⟩

/-- A mail has a result, unless an entry comes without the check of its source. -/
lemma exists_send {source : Bool} (hsource : event.kind = .entryReview → source = true) :
    ∃ result calls, run (perform server) (send render config event source) [] = (.ok result, calls) := by
  unfold send
  rw [if_neg (by rintro ⟨hkind, hnone⟩; rw [hsource hkind] at hnone; cases hnone)]
  dsimp only
  rw [run_andThen]
  rcases run (perform server) (ask false (.connect config.host 465) >>= fun _ =>
    finally_ (exchange config event (frame (render event))) closeQuietly) [] with ⟨_ | _, calls⟩
  · exact ⟨_, calls, rfl⟩
  · exact ⟨_, calls, rfl⟩

/-- What a mail promises: its outcome is sound, and its body is read as the message. -/
structure SendSound (config : SmtpConfig) (event : AlertEvent O) (source : Bool) (server : Server) : Prop where
  outcome : ∀ result calls, run (perform server) (send render config event source) [] = (.ok result, calls) →
    OutcomeSound server (frame (render event)) calls result
  framed : ∀ lines : List (List UInt8), lines ≠ [] → (∀ line ∈ lines, IsLine line) → render event = joinLines lines →
    readText (frame (render event)) =
      some (if crlf.isSuffixOf (render event) then render event else render event ++ crlf, [])

/-- A server that takes the body and answers with a malformed line. -/
def malformedReply : Server
  | .mail _ | .rcpt _ => .ok (250 : ℤ)
  | .docmd _ => .ok (354 : ℤ)
  | .nowMs => .ok (0 : ℤ)
  | .getreply => .ok (-1 : ℤ)
  | .sourceIsCurrent => .ok true
  | .connect .. | .login .. | .send _ | .close => .ok ()

/-- Where the mail goes. -/
def demoConfig : SmtpConfig := ⟨"smtp.126.com", "sender@example.test", "reader@example.test", "code"⟩

end SmtpTransport

end MuStrategy.Notifications
