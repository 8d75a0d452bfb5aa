import Ibridger.Js.Outage
import Ibridger.Js.Timers

/-! # The attempts of the JS reconnect loop

What a loop sleeps and what becomes of its attempts while nobody else connects.
-/

namespace Ibridger.Js

open RetryPolicy Wire

/-- The loop of `scheduleReconnect`, as a policy. The wait is that of the timer. -/
def ReconnectOptions.policy (options : ReconnectOptions) : RetryPolicy where
  allows := options.allows
  wait attempt := sleepMs (options.delayNumber attempt)

namespace Client

variable {Value : Type} (format : EnvelopeFormat)
  (decode : Nat → List UInt8 → Except String Value)

/-- The step in which the `connect` of a loop ends: it is connected, or fails with a
message. -/
def connectEnds (k : Nat) : Option String → ClientEvent
  | none => .connected k false
  | some message => .connectFailed k message

/-- The sleeps of a loop, whose attempts end as given. -/
def tries (options : ReconnectOptions) (l : Nat) :
    Client Value → List (Option String) → List Int × Verdict
  | client, [] =>
      match client.loops[l]? with
      | some (.sleeping attempt _) => ([(sleepMs (options.delayNumber attempt) : Int)], .waiting)
      | _ => ([], .exhausted)
  | client, outcome :: rest =>
      match client.loops[l]? with
      | some (.sleeping attempt _) =>
          let wait : Int := sleepMs (options.delayNumber attempt)
          match (client.step format decode (.sleepOver l)).bind fun connecting =>
            connecting.step format decode (connectEnds client.connects.length outcome) with
          | none => ([wait], .waiting)
          | some next =>
              if outcome = none ∧ next.loops[l]? = some .ended then ([wait], .succeeded)
              else (wait :: (tries options l next rest).1, (tries options l next rest).2)
      | _ => ([], .exhausted)

variable {format decode} {client : Client Value} {options : ReconnectOptions} {l : Nat}

theorem attempt_loop (hl : l < client.loops.length) (n : Nat) :
    (client.attempt options l n).loops[l]? =
      some (if options.allows n then .sleeping n (options.delay n) else .ended) := by
  unfold attempt
  split
  · exact List.getElem?_set_self hl
  · exact List.getElem?_set_self hl

/-- A loop that is asleep and wakes connects, whatever comes of it. -/
theorem step_sleepOver (hcodec : client.codec = none) (hl : l < client.loops.length) {n : Nat}
    (hallows : options.allows n = true) :
    (client.attempt options l n).connects = client.connects ∧
      (client.attempt options l n).step format decode (.sleepOver l) = some
        { client with
          loops := (client.loops.set l (.sleeping n (options.delay n))).set l (.connecting n)
          connects := client.connects ++ [⟨some l, .pending⟩] } := by
  have hattempt : client.attempt options l n =
      { client with loops := client.loops.set l (.sleeping n (options.delay n)) } := by
    rw [attempt, if_pos hallows]
  refine ⟨by rw [hattempt], ?_⟩
  rw [hattempt]
  exact @sleepOver_of_sleeping _
    { client with loops := client.loops.set l (.sleeping n (options.delay n)) } l n _ hcodec
    (List.getElem?_set_self hl)

/-- A failed attempt is followed by the next. -/
theorem step_connectFailed (hcodec : client.codec = none) (hl : l < client.loops.length)
    (hconfig : client.config.reconnect = some options) {n : Nat}
    (hallows : options.allows n = true) (message : String) :
    ∃ failed : Client Value, failed.codec = none ∧ failed.config.reconnect = some options ∧
      l < failed.loops.length ∧
      ((client.attempt options l n).step format decode (.sleepOver l)).bind (fun connecting =>
        connecting.step format decode
          (connectEnds (client.attempt options l n).connects.length (some message))) =
        some (failed.attempt options l (n + 1)) := by
  obtain ⟨hconnects, hstep⟩ := @step_sleepOver _ format decode client options l hcodec hl n hallows
  rw [hstep, hconnects]
  let failed : Client Value := { client with
    loops := (client.loops.set l (.sleeping n (options.delay n))).set l (.connecting n)
    connects := (client.connects ++ [Connect.mk (some l) .pending]).set client.connects.length
      (Connect.mk (some l) (.failed message)) }
  refine ⟨failed, hcodec, hconfig, by simp [failed, hl], ?_⟩
  simp [connectEnds, step, connectFailed, retry, hconfig, hl, failed]

/-- An attempt that succeeds ends the loop. -/
theorem step_connected (hcodec : client.codec = none) (hl : l < client.loops.length) {n : Nat}
    (hallows : options.allows n = true) :
    ∃ next : Client Value, next.loops[l]? = some .ended ∧
      ((client.attempt options l n).step format decode (.sleepOver l)).bind (fun connecting =>
        connecting.step format decode
          (connectEnds (client.attempt options l n).connects.length none)) = some next := by
  obtain ⟨hconnects, hstep⟩ := @step_sleepOver _ format decode client options l hcodec hl n hallows
  rw [hstep, hconnects]
  simp only [connectEnds, Option.bind_some, step, connected, List.getElem?_concat_length]
  refine ⟨_, ?_, rfl⟩
  simp [reconnected, hl]

/-- The attempts of a loop that is alone are those of the policy. -/
theorem tries_attempt (hcodec : client.codec = none) (hl : l < client.loops.length)
    (hconfig : client.config.reconnect = some options) (n : Nat)
    (outcomes : List (Option String)) :
    tries format decode options l (client.attempt options l n) outcomes =
      options.policy.attempts n (outcomes.map Option.isNone) := by
  induction outcomes generalizing client n with
  | nil =>
      have hloop := @attempt_loop _ client options l hl n
      by_cases hallows : options.allows n = true
      · rw [if_pos hallows] at hloop
        have hpolicy : options.policy.allows n = true := hallows
        simp only [tries, hloop, List.map_nil, attempts, hpolicy, if_true]
        rfl
      · rw [if_neg hallows] at hloop
        have hpolicy : options.policy.allows n = false := Bool.eq_false_iff.mpr hallows
        rw [attempts_of_not_allows hpolicy, tries, hloop]
  | cons outcome rest ih =>
      have hloop := @attempt_loop _ client options l hl n
      by_cases hallows : options.allows n = true
      · rw [if_pos hallows] at hloop
        have hpolicy : options.policy.allows n = true := hallows
        cases outcome with
        | none =>
            obtain ⟨next, hended, hstep⟩ :=
              @step_connected _ format decode client options l hcodec hl n hallows
            simp only [tries, hloop, hstep, hended, and_self, if_true, List.map_cons,
              Option.isNone_none, attempts, hpolicy]
            rfl
        | some message =>
            obtain ⟨failed, hfree, hsame, hlong, hstep⟩ :=
              @step_connectFailed _ format decode client options l hcodec hl hconfig n hallows
                message
            simp only [tries, hloop, hstep, ih hfree hlong hsame, reduceCtorEq, false_and, if_false,
              List.map_cons, Option.isNone_some, attempts, hpolicy, if_true, Bool.false_eq_true]
            rfl
      · rw [if_neg hallows] at hloop
        have hpolicy : options.policy.allows n = false := Bool.eq_false_iff.mpr hallows
        rw [attempts_of_not_allows hpolicy, tries, hloop]

/-- `scheduleReconnect` begins with the first attempt of a new loop. -/
theorem tries_scheduleReconnect (hcodec : client.codec = none)
    (hidle : client.reconnecting = false) (hconfig : client.config.reconnect = some options)
    (outcomes : List (Option String)) :
    tries format decode options client.loops.length (client.scheduleReconnect options) outcomes =
      options.policy.attempts 0 (outcomes.map Option.isNone) := by
  unfold scheduleReconnect
  rw [hidle, if_neg Bool.false_ne_true]
  let started : Client Value :=
    { client with reconnecting := true, loops := client.loops ++ [ReconnectLoop.ended] }
  have hlong : client.loops.length < started.loops.length := by simp [started]
  exact @tries_attempt _ format decode started options client.loops.length hcodec hlong hconfig 0
    outcomes

end Client

end Ibridger.Js
