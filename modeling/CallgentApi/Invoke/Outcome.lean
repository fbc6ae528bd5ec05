import CallgentApi.Pipe.Session
import CallgentApi.Invoke.Callback

/-!
# The outcome of a task script

A subprocess reports a final response or a final error on the pipe and exits
with a code.  What it has reported is read off its lines; the service returns
its own result, which looks at the exit code first, then at the response, and
at the error last.
-/

namespace CallgentApi
namespace Invoke

open Js Event Pipe Effect

variable {sigma : Type}

/-! ## What the lines report -/

section Lines

variable {alpha beta : Type}

/-- The last of the values that `f` reads off a list. -/
def lastOf (f : alpha -> Option beta) (xs : List alpha) : Option beta :=
  (xs.filterMap f).getLast?

theorem lastOf_cons (f : alpha -> Option beta) (x : alpha) (xs : List alpha) :
    lastOf f (x :: xs) = (lastOf f xs).or (f x) := by
  unfold lastOf
  cases hx : f x with
  | none =>
      rw [List.filterMap_cons_none hx, Option.or_none]
  | some y =>
      rw [List.filterMap_cons_some hx]
      cases hlast : (xs.filterMap f).getLast? with
      | none =>
          rw [List.getLast?_eq_none_iff.mp hlast]
          rfl
      | some z =>
          rw [List.getLast?_cons, hlast]
          rfl

theorem lastOf_append_singleton (f : alpha -> Option beta) (xs : List alpha)
    (x : alpha) : lastOf f (xs ++ [x]) = (f x).or (lastOf f xs) := by
  unfold lastOf
  rw [List.filterMap_append, List.getLast?_append]
  cases hx : f x with
  | none => rw [List.filterMap_cons_none hx]; rfl
  | some y => rw [List.filterMap_cons_some hx]; rfl

theorem lastOf_eq_none {f : alpha -> Option beta} {xs : List alpha}
    (h : forall x, x ∈ xs -> f x = none) : lastOf f xs = none := by
  unfold lastOf
  rw [List.filterMap_eq_nil_iff.mpr h]
  rfl

end Lines

def responseOf (cmdPrefix msg : Text) : Option Text :=
  match readLine cmdPrefix msg with
  | .finalResponse content => some content
  | _ => none

def errorOf (cmdPrefix msg : Text) : Option Text :=
  match readLine cmdPrefix msg with
  | .finalError content => some content
  | _ => none

def lastResponse (cmdPrefix : Text) (lines : List Text) : Option Text :=
  lastOf (responseOf cmdPrefix) lines

def lastError (cmdPrefix : Text) (lines : List Text) : Option Text :=
  lastOf (errorOf cmdPrefix) lines

/-- The variables of `onLine` after lines with these last reports. -/
structure PipeState.ReadTo (pipe : PipeState) (response error : Option Text)
    (next : PipeState) : Prop where
  finalResponse : next.finalResponse = response.or pipe.finalResponse
  finalError : next.finalError = error.or pipe.finalError
  frozenKilled : pipe.frozenKilled = true -> next.frozenKilled = true

theorem PipeState.readTo_self (pipe : PipeState) :
    pipe.ReadTo none none pipe where
  finalResponse := Option.none_or.symm
  finalError := Option.none_or.symm
  frozenKilled := id

section Reading

variable (host : InvokeHost sigma) (cwd : List Text) (cmdPrefix : Text)

theorem always_onLine (pipe : PipeState) (msg : Text) :
    Always
      (pipe.ReadTo (responseOf cmdPrefix msg) (errorOf cmdPrefix msg))
      (onLine host cwd cmdPrefix pipe msg) := by
  unfold onLine responseOf errorOf
  cases readLine cmdPrefix msg with
  | ignored => exact Always.pure pipe.readTo_self
  | finalResponse content => exact Always.pure ⟨rfl, Option.none_or.symm, id⟩
  | finalError content => exact Always.pure ⟨Option.none_or.symm, rfl, id⟩
  | command cmdCode content =>
      dsimp only
      split
      · exact Always.pure pipe.readTo_self
      · exact Always.pure pipe.readTo_self
      · apply Always.bind (Always.attempt _)
        intro served _
        cases served with
        | none => exact Always.pure pipe.readTo_self
        | some r =>
            dsimp only
            split
            · apply Always.bind (Always.modify _)
              intro _ _
              apply Always.bind (Always.attempt _)
              intro frozen _
              cases frozen with
              | none => exact Always.pure pipe.readTo_self
              | some _ =>
                  exact Always.pure
                    ⟨Option.none_or.symm, Option.none_or.symm, fun _ => rfl⟩
            · apply Always.bind (Always.modify _)
              intro _ _
              exact Always.pure pipe.readTo_self

theorem always_onLines (lines : List Text) (pipe : PipeState) :
    Always
      (pipe.ReadTo (lastResponse cmdPrefix lines) (lastError cmdPrefix lines))
      (onLines host cwd cmdPrefix lines pipe) := by
  induction lines generalizing pipe with
  | nil => exact Always.pure pipe.readTo_self
  | cons msg rest ih =>
      apply Always.bind (always_onLine host cwd cmdPrefix pipe msg)
      intro read hread s
      rcases ih read s with ⟨pipe', next, hexec, hrest⟩
      refine ⟨pipe', next, hexec, ?_⟩
      have hresponse : lastResponse cmdPrefix (msg :: rest) =
          (lastResponse cmdPrefix rest).or (responseOf cmdPrefix msg) :=
        lastOf_cons _ _ _
      have herror : lastError cmdPrefix (msg :: rest) =
          (lastError cmdPrefix rest).or (errorOf cmdPrefix msg) :=
        lastOf_cons _ _ _
      constructor
      · rw [hrest.finalResponse, hread.finalResponse, hresponse,
          Option.or_assoc]
      · rw [hrest.finalError, hread.finalError, herror, Option.or_assoc]
      · exact fun h => hrest.frozenKilled (hread.frozenKilled h)

end Reading

/-! ## What the service returns -/

/-- The data of a final response; the empty text is its own data. -/
def readResponse (host : InvokeHost sigma) : Text -> Except Text Json
  | [] => .ok (.str [])
  | c :: rest => host.parseJson (c :: rest)

def Reported (host : InvokeHost sigma) (frozen : Bool)
    (error response : Option Text) (result : PendingOrResponse) : Prop :=
  match frozen, error, response with
  | true, _, _ => PendingOrResponse.isPending (some result) = true
  | false, some text, _ =>
      result.statusCode = some 1 ∧ result.message = some text
  | false, none, some text =>
      exists data, readResponse host text = .ok data ∧
        result = .ofData (some data)
  | false, none, none => True

/-- The exit code stands for no error, or for the kill that ends a freeze. -/
def ExitsClean (frozen : Bool) (exitCode : Option Int) : Prop :=
  exitCode.getD 0 = 0 ∨ (frozen = true ∧ exitCode = some 137)

instance (frozen : Bool) (exitCode : Option Int) :
    Decidable (ExitsClean frozen exitCode) :=
  inferInstanceAs (Decidable (_ ∨ _))

def exitMessage (exitCode : Option Int) : Text :=
  "Task Subprocess exited with code ".toList ++ decimal (exitCode.getD 0)

def unreadable (text stack : Text) : Text :=
  (Json.arr [.str text, .str stack]).stringify

/-- The exit code is clean, an error is reported alone, and a response can be
read; or the error reported is word for word the message that the service puts
in its place. -/
def Undisturbed (host : InvokeHost sigma) (frozen : Bool)
    (exitCode : Option Int) (error response : Option Text) : Prop :=
  if ExitsClean frozen exitCode then
    match frozen, error, response with
    | true, _, _ => True
    | false, some _, none => True
    | false, some text, some response =>
        exists stack, readResponse host response = .error stack ∧
          text = unreadable response stack
    | false, none, some response =>
        exists data, readResponse host response = .ok data
    | false, none, none => True
  else
    match frozen, error, response with
    | true, _, _ => False
    | false, some text, _ => text = exitMessage exitCode
    | false, none, some _ => False
    | false, none, none => True

section Result

variable {host : InvokeHost sigma} {pipe : PipeState} {exitCode : Option Int}

theorem exitResult_of_not_clean
    (h : ¬ ExitsClean pipe.frozenKilled exitCode) :
    exitResult host pipe exitCode =
      scriptError (some (exitMessage exitCode)) := by
  have hexited : exitCode.getD 0 ≠ 0 ∧
      (pipe.frozenKilled = false ∨ exitCode ≠ some 137) := by
    unfold ExitsClean at h
    rw [not_or, not_and_or, Bool.not_eq_true] at h
    exact h
  unfold exitResult
  rw [if_pos hexited]
  rfl

theorem exitResult_of_clean (h : ExitsClean pipe.frozenKilled exitCode) :
    exitResult host pipe exitCode = exitResult host pipe none := by
  have hexited : ¬ (exitCode.getD 0 ≠ 0 ∧
      (pipe.frozenKilled = false ∨ exitCode ≠ some 137)) := by
    rcases h with hzero | ⟨hfrozen, hkilled⟩
    · exact fun hcode => hcode.left hzero
    · rintro ⟨_, hrunning | hcode⟩
      · rw [hfrozen] at hrunning
        cases hrunning
      · exact hcode hkilled
  unfold exitResult
  rw [if_neg hexited]
  rfl

theorem exitResult_of_running (h : pipe.frozenKilled = false) :
    exitResult host pipe none =
      match pipe.finalResponse with
      | none => scriptError pipe.finalError
      | some text =>
          match readResponse host text with
          | .ok data => .ofData (some data)
          | .error stack => scriptError (some (unreadable text stack)) := by
  unfold exitResult
  rw [h]
  cases pipe.finalResponse with
  | none => rfl
  | some text =>
      cases text with
      | nil => rfl
      | cons c rest => rfl

theorem exitResult_of_frozen (h : pipe.frozenKilled = true) :
    PendingOrResponse.isPending (some (exitResult host pipe none)) = true := by
  unfold exitResult
  rw [h]
  rfl

theorem reported_of_running (error response : Option Text) :
    Reported host false error response
        (match response with
        | none => scriptError error
        | some text =>
            match readResponse host text with
            | .ok data => .ofData (some data)
            | .error stack => scriptError (some (unreadable text stack))) <->
      match error, response with
      | some _, none => True
      | some text, some response =>
          exists stack, readResponse host response = .error stack ∧
            text = unreadable response stack
      | none, some response => exists data, readResponse host response = .ok data
      | none, none => True := by
  cases response with
  | none =>
      cases error with
      | none => exact Iff.rfl
      | some text => exact iff_true_intro ⟨rfl, rfl⟩
  | some response =>
      unfold Reported
      cases error with
      | none =>
          dsimp only
          cases readResponse host response with
          | ok data =>
              constructor
              · rintro ⟨d, hd, _⟩
                exact ⟨d, hd⟩
              · rintro ⟨d, hd⟩
                cases hd
                exact ⟨data, rfl, rfl⟩
          | error stack =>
              constructor
              · rintro ⟨d, hd, _⟩
                exact ⟨d, hd⟩
              · rintro ⟨d, hd⟩
                cases hd
      | some text =>
          dsimp only
          cases readResponse host response with
          | ok data =>
              constructor
              · rintro ⟨hstatus, _⟩
                cases hstatus
              · rintro ⟨stack, hstack, _⟩
                cases hstack
          | error stack =>
              constructor
              · rintro ⟨_, hmessage⟩
                exact ⟨stack, rfl, (Option.some.inj hmessage).symm⟩
              · rintro ⟨stack', hstack, htext⟩
                cases hstack
                exact ⟨rfl, congrArg some htext.symm⟩

theorem reported_of_not_clean (frozen : Bool) (error response : Option Text) :
    Reported host frozen error response
        (scriptError (some (exitMessage exitCode))) <->
      match frozen, error, response with
      | true, _, _ => False
      | false, some text, _ => text = exitMessage exitCode
      | false, none, some _ => False
      | false, none, none => True := by
  cases frozen with
  | true =>
      constructor
      · intro hpending
        cases hpending
      · exact False.elim
  | false =>
      cases error with
      | some text =>
          constructor
          · rintro ⟨_, hmessage⟩
            exact (Option.some.inj hmessage).symm
          · intro htext
            exact ⟨rfl, congrArg some htext.symm⟩
      | none =>
          cases response with
          | none => exact Iff.rfl
          | some response =>
              constructor
              · rintro ⟨data, _, hdata⟩
                cases hdata
              · exact False.elim

theorem reported_exitResult_iff :
    Reported host pipe.frozenKilled pipe.finalError pipe.finalResponse
        (exitResult host pipe exitCode) <->
      Undisturbed host pipe.frozenKilled exitCode pipe.finalError
        pipe.finalResponse := by
  unfold Undisturbed
  by_cases hclean : ExitsClean pipe.frozenKilled exitCode
  · rw [if_pos hclean, exitResult_of_clean hclean]
    cases hfrozen : pipe.frozenKilled with
    | true => exact iff_true_intro (exitResult_of_frozen hfrozen)
    | false =>
        rw [exitResult_of_running hfrozen]
        apply (reported_of_running _ _).trans
        cases pipe.finalError <;> cases pipe.finalResponse <;> exact Iff.rfl
  · rw [if_neg hclean, exitResult_of_not_clean hclean]
    apply (reported_of_not_clean _ _ _).trans
    cases pipe.frozenKilled <;> cases pipe.finalError <;>
      cases pipe.finalResponse <;> exact Iff.rfl

end Result

/-! ## The line of a command -/

/-- A line that is read as a command, with the value it carries. -/
inductive Commands (host : InvokeHost sigma) (cmdPrefix msg : Text)
    (cmdCode : Option Text) (v : Json) : Prop where
  | intro {content : Text}
      (hline : readLine cmdPrefix msg = .command cmdCode content)
      (hparse : host.parseJson content = .ok v)
      (hobject : v ≠ .null) :
      Commands host cmdPrefix msg cmdCode v

inductive Reports (host : InvokeHost sigma) (cmdPrefix msg : Text) : Prop where
  | ignored (hline : readLine cmdPrefix msg = .ignored)
  | response {content : Text}
      (hline : readLine cmdPrefix msg = .finalResponse content)
  | error {content : Text}
      (hline : readLine cmdPrefix msg = .finalError content)
  | unreadable {cmdCode : Option Text} {content stack : Text}
      (hline : readLine cmdPrefix msg = .command cmdCode content)
      (hparse : host.parseJson content = .error stack)
  | null {cmdCode : Option Text} {content : Text}
      (hline : readLine cmdPrefix msg = .command cmdCode content)
      (hparse : host.parseJson content = .ok .null)

section Commands

variable {host : InvokeHost sigma} {cmdPrefix msg : Text}
  {cmdCode : Option Text} {v : Json} {s next : CallState sigma}

theorem commands_or_reports (host : InvokeHost sigma) (cmdPrefix msg : Text) :
    (exists cmdCode v, Commands host cmdPrefix msg cmdCode v) ∨
      Reports host cmdPrefix msg := by
  cases hline : readLine cmdPrefix msg with
  | ignored => exact Or.inr (.ignored hline)
  | finalResponse content => exact Or.inr (.response hline)
  | finalError content => exact Or.inr (.error hline)
  | command cmdCode content =>
      cases hparse : host.parseJson content with
      | error stack => exact Or.inr (.unreadable hline hparse)
      | ok v =>
          by_cases hnull : v = .null
          · rw [hnull] at hparse
            exact Or.inr (.null hline hparse)
          · exact Or.inl ⟨cmdCode, v, .intro hline hparse hnull⟩

theorem onLine_of_commands (h : Commands host cmdPrefix msg cmdCode v)
    (cwd : List Text) (pipe : PipeState) :
    onLine host cwd cmdPrefix pipe msg = (do
      match ← attempt (invokeSEP host (commandOf v).1 (commandOf v).2
          cmdCode) with
      | none => return pipe
      | some r =>
          if PendingOrResponse.isPending r then
            Action.callSubprocess (.freeze cwd)
            match ← attempt (Action.outside (host.freezeProcess cwd)) with
            | none => return pipe
            | some _ => return { pipe with frozenKilled := true }
          else
            Action.callSubprocess (.write (replyMessage cmdPrefix
              (interpolate cmdCode)
              (payloadText (r.map PendingOrResponse.toJson))))
            return pipe) := by
  cases h with
  | intro hline hparse hobject =>
      unfold onLine
      rw [hline]
      dsimp only
      rw [hparse]
      cases v with
      | null => exact absurd rfl hobject
      | bool _ => rfl
      | num _ => rfl
      | str _ => rfl
      | arr _ => rfl
      | obj _ => rfl

theorem exec_onLine_answered {r : Option PendingOrResponse}
    (h : Commands host cmdPrefix msg cmdCode v)
    (hinvoked : (invokeSEP host (commandOf v).1 (commandOf v).2 cmdCode).exec s
      = (.ok r, next))
    (hdone : PendingOrResponse.isPending r = false)
    (cwd : List Text) (pipe : PipeState) :
    (onLine host cwd cmdPrefix pipe msg).exec s =
      (.ok pipe, { next with
        subprocess := next.subprocess ++
          [.write (replyMessage cmdPrefix (interpolate cmdCode)
            (payloadText (r.map PendingOrResponse.toJson)))] }) := by
  have hattempt : (attempt (invokeSEP host (commandOf v).1 (commandOf v).2
      cmdCode)).exec s = (.ok (some r), next) := by
    rw [exec_attempt, hinvoked]
  rw [onLine_of_commands h]
  apply (exec_bind_of_ok hattempt _).trans
  dsimp only
  rw [hdone]
  rfl

theorem exec_onLine_threw {e : Thrown}
    (h : Commands host cmdPrefix msg cmdCode v)
    (hinvoked : (invokeSEP host (commandOf v).1 (commandOf v).2 cmdCode).exec s
      = (.error e, next))
    (cwd : List Text) (pipe : PipeState) :
    (onLine host cwd cmdPrefix pipe msg).exec s = (.ok pipe, next) := by
  have hattempt : (attempt (invokeSEP host (commandOf v).1 (commandOf v).2
      cmdCode)).exec s = (.ok none, next) := by
    rw [exec_attempt, hinvoked]
  rw [onLine_of_commands h]
  exact exec_bind_of_ok hattempt _

theorem exec_onLine_pending {r : Option PendingOrResponse}
    {result : Except Thrown Unit} {last : sigma}
    (h : Commands host cmdPrefix msg cmdCode v)
    (hinvoked : (invokeSEP host (commandOf v).1 (commandOf v).2 cmdCode).exec s
      = (.ok r, next))
    (hpending : PendingOrResponse.isPending r = true)
    {cwd : List Text}
    (hfrozen : exec (host.freezeProcess cwd) next.world.outside =
      (result, last)) (pipe : PipeState) :
    exists last,
      (onLine host cwd cmdPrefix pipe msg).exec s =
        (.ok (match result with
          | .ok _ => { pipe with frozenKilled := true }
          | .error _ => pipe), last) ∧
      last.event = next.event ∧
      last.subprocess = next.subprocess ++ [.freeze cwd] := by
  have hattempt : (attempt (invokeSEP host (commandOf v).1 (commandOf v).2
      cmdCode)).exec s = (.ok (some r), next) := by
    rw [exec_attempt, hinvoked]
  let called : CallState sigma :=
    { next with subprocess := next.subprocess ++ [.freeze cwd] }
  have houtside : (Action.outside (host.freezeProcess cwd)).exec called =
      (result, { called with
        world := { called.world with outside := last } }) :=
    exec_outside hfrozen
  refine ⟨{ called with world := { called.world with outside := last } }, ?_,
    rfl, rfl⟩
  have hfroze : (attempt (Action.outside (host.freezeProcess cwd))).exec called
      = (.ok result.toOption, { called with
        world := { called.world with outside := last } }) := by
    rw [exec_attempt, houtside]
    cases result with
    | ok _ => rfl
    | error e => rfl
  have hcalled : (Action.callSubprocess (.freeze cwd)).exec next =
      (.ok (), called) := rfl
  rw [onLine_of_commands h]
  apply (exec_bind_of_ok hattempt _).trans
  dsimp only
  rw [hpending, if_pos rfl]
  apply (exec_bind_of_ok hcalled _).trans
  apply (exec_bind_of_ok hfroze _).trans
  cases result with
  | ok _ => rfl
  | error e => rfl

theorem exec_onLine_reports (h : Reports host cmdPrefix msg)
    (cwd : List Text) (pipe : PipeState) (s : CallState sigma) :
    exists pipe', (onLine host cwd cmdPrefix pipe msg).exec s =
        (.ok pipe', s) ∧
      pipe'.frozenKilled = pipe.frozenKilled := by
  unfold onLine
  cases h with
  | ignored hline =>
      rw [hline]
      exact ⟨_, rfl, rfl⟩
  | response hline =>
      rw [hline]
      exact ⟨_, rfl, rfl⟩
  | error hline =>
      rw [hline]
      exact ⟨_, rfl, rfl⟩
  | unreadable hline hparse =>
      rw [hline]
      dsimp only
      rw [hparse]
      exact ⟨_, rfl, rfl⟩
  | null hline hparse =>
      rw [hline]
      dsimp only
      rw [hparse]
      exact ⟨_, rfl, rfl⟩

end Commands

/-! ## Whether the run froze the process -/

/-- The line is a command that is pending, and the process is frozen for it. -/
inductive Freezes (host : InvokeHost sigma) (cwd : List Text)
    (cmdPrefix msg : Text) (s : CallState sigma) : Prop where
  | intro {cmdCode : Option Text} {v : Json} {r : Option PendingOrResponse}
      {next : CallState sigma} {last : sigma}
      (hcommand : Commands host cmdPrefix msg cmdCode v)
      (hinvoked : (invokeSEP host (commandOf v).1 (commandOf v).2
        cmdCode).exec s = (.ok r, next))
      (hpending : PendingOrResponse.isPending r = true)
      (hfrozen : exec (host.freezeProcess cwd) next.world.outside =
        (.ok (), last)) :
      Freezes host cwd cmdPrefix msg s

/-- One of the lines freezes the process, in the state in which it is read. -/
inductive Froze (host : InvokeHost sigma) (cwd : List Text)
    (cmdPrefix : Text) : List Text -> PipeState -> CallState sigma -> Prop where
  | here {msg : Text} {rest : List Text} {pipe : PipeState}
      {s : CallState sigma} (h : Freezes host cwd cmdPrefix msg s) :
      Froze host cwd cmdPrefix (msg :: rest) pipe s
  | later {msg : Text} {rest : List Text} {pipe pipe' : PipeState}
      {s next : CallState sigma}
      (hline : (onLine host cwd cmdPrefix pipe msg).exec s =
        (.ok pipe', next))
      (h : Froze host cwd cmdPrefix rest pipe' next) :
      Froze host cwd cmdPrefix (msg :: rest) pipe s

section Frozen

variable {host : InvokeHost sigma} {cwd : List Text} {cmdPrefix msg : Text}
  {pipe pipe' : PipeState} {s next : CallState sigma}

theorem frozenKilled_onLine
    (h : (onLine host cwd cmdPrefix pipe msg).exec s = (.ok pipe', next)) :
    pipe'.frozenKilled = true <->
      pipe.frozenKilled = true ∨ Freezes host cwd cmdPrefix msg s := by
  constructor
  · intro hfrozen
    rcases commands_or_reports host cmdPrefix msg with
      ⟨cmdCode, v, hcommand⟩ | hreports
    · cases hinvoked : (invokeSEP host (commandOf v).1 (commandOf v).2
          cmdCode).exec s with
      | mk result middle =>
          cases result with
          | error e =>
              rw [exec_onLine_threw hcommand hinvoked] at h
              cases h
              exact Or.inl hfrozen
          | ok r =>
              cases hpending : PendingOrResponse.isPending r with
              | false =>
                  rw [exec_onLine_answered hcommand hinvoked hpending] at h
                  cases h
                  exact Or.inl hfrozen
              | true =>
                  cases hkilled : exec (host.freezeProcess cwd)
                      middle.world.outside with
                  | mk killed last =>
                      rcases exec_onLine_pending hcommand hinvoked hpending
                        hkilled pipe with ⟨_, hexec, _⟩
                      rw [h] at hexec
                      cases killed with
                      | ok _ =>
                          exact Or.inr
                            (.intro hcommand hinvoked hpending hkilled)
                      | error e =>
                          cases hexec
                          exact Or.inl hfrozen
    · rcases exec_onLine_reports hreports cwd pipe s with ⟨_, hexec, hkept⟩
      rw [h] at hexec
      cases hexec
      exact Or.inl (hkept.symm.trans hfrozen)
  · rintro (hfrozen | hfreezes)
    · rcases always_onLine host cwd cmdPrefix pipe msg s with
        ⟨_, _, hexec, hread⟩
      rw [h] at hexec
      cases hexec
      exact hread.frozenKilled hfrozen
    · cases hfreezes with
      | intro hcommand hinvoked hpending hkilled =>
          rcases exec_onLine_pending hcommand hinvoked hpending hkilled pipe
            with ⟨_, hexec, _⟩
          rw [h] at hexec
          cases hexec
          rfl

theorem frozenKilled_onLines {lines : List Text}
    (h : (onLines host cwd cmdPrefix lines pipe).exec s = (.ok pipe', next)) :
    pipe'.frozenKilled = true <->
      pipe.frozenKilled = true ∨ Froze host cwd cmdPrefix lines pipe s := by
  induction lines generalizing pipe s with
  | nil =>
      rcases exec_pure_eq_ok h with ⟨rfl, _⟩
      constructor
      · exact Or.inl
      · rintro (hfrozen | hfroze)
        · exact hfrozen
        · cases hfroze
  | cons msg rest ih =>
      rcases exec_bind_eq_ok h with ⟨read, middle, hline, hrest⟩
      rw [ih hrest, frozenKilled_onLine hline, or_assoc]
      apply or_congr_right
      constructor
      · rintro (hfreezes | hfroze)
        · exact Froze.here hfreezes
        · exact Froze.later hline hfroze
      · intro hfroze
        cases hfroze with
        | here hfreezes => exact Or.inl hfreezes
        | later hline' hfroze =>
            rw [hline] at hline'
            cases hline'
            exact Or.inr hfroze

end Frozen

/-! ## A subprocess of an event -/

/-- A subprocess has been spawned or restored for an event, sends its lines
and exits. -/
structure Spawned (host : InvokeHost sigma) (kind : ObjectKind)
    (response : Value) (invokeId : Text) (s : CallState sigma)
    (lines : List Text) (exitCode : Option Int) where
  cwd : List Text
  outside : sigma
  taskCwd : getTaskCwd kind s.event host.uploadBaseDir = .ok cwd
  session : exec
    (host.spawnOrRestore cwd (commandPrefix s.event)
      (callbackMessage (commandPrefix s.event) invokeId response))
    s.world.outside = (.ok ⟨lines, .ok exitCode⟩, outside)

section Spawned

variable {host : InvokeHost sigma} {kind : ObjectKind} {response : Value}
  {invokeId : Text} {s : CallState sigma} {lines : List Text}
  {exitCode : Option Int}

/-- The state in which the first line of the subprocess is read. -/
def Spawned.start
    (h : Spawned host kind response invokeId s lines exitCode) :
    CallState sigma where
  event := s.event
  world := { s.world with outside := h.outside }
  subprocess := s.subprocess ++
    [.spawnOrRestore h.cwd (commandPrefix s.event)
      (callbackMessage (commandPrefix s.event) invokeId response)]

def Spawned.Froze (h : Spawned host kind response invokeId s lines exitCode) :
    Prop :=
  Invoke.Froze host h.cwd (commandPrefix s.event) lines ⟨none, none, false⟩
    h.start

theorem exec_spawnOrRestoreSubprocess
    (h : Spawned host kind response invokeId s lines exitCode) :
    exists pipe last,
      (onLines host h.cwd (commandPrefix s.event) lines
        ⟨none, none, false⟩).exec h.start = (.ok pipe, last) ∧
      (spawnOrRestoreSubprocess host kind response invokeId).exec s =
        (.ok (exitResult host pipe exitCode), last) ∧
      pipe.finalResponse = lastResponse (commandPrefix s.event) lines ∧
      pipe.finalError = lastError (commandPrefix s.event) lines ∧
      (pipe.frozenKilled = true <-> h.Froze) := by
  let message := callbackMessage (commandPrefix s.event) invokeId response
  let called : CallState sigma :=
    { s with
        subprocess := s.subprocess ++
          [.spawnOrRestore h.cwd (commandPrefix s.event) message] }
  have hcalled : (Action.callSubprocess
      (.spawnOrRestore h.cwd (commandPrefix s.event) message)).exec s =
      (.ok (), called) := rfl
  have hstarted : (Action.outside (host.spawnOrRestore h.cwd
      (commandPrefix s.event) message)).exec called =
      (.ok ⟨lines, .ok exitCode⟩, h.start) :=
    exec_outside h.session
  rcases always_onLines host h.cwd (commandPrefix s.event) lines
    ⟨none, none, false⟩ h.start with ⟨pipe, last, hlines, hread⟩
  refine ⟨pipe, last, hlines, ?_, ?_, ?_, ?_⟩
  · unfold spawnOrRestoreSubprocess
    rw [exec_bind_of_ok (exec_getEvent s), h.taskCwd]
    apply (exec_bind_of_ok hcalled _).trans
    apply (exec_bind_of_ok hstarted _).trans
    exact exec_bind_of_ok hlines _
  · rw [hread.finalResponse, Option.or_none]
  · rw [hread.finalError, Option.or_none]
  · rw [frozenKilled_onLines hlines]
    exact ⟨fun h => h.resolve_left (by simp), Or.inr⟩

/-- The result tells whether the process was frozen and what it has reported
exactly when nothing disturbs its exit. -/
theorem outcome_reported_iff
    (h : Spawned host kind response invokeId s lines exitCode) :
    exists frozen result last,
      (frozen = true <-> h.Froze) ∧
      (spawnOrRestoreSubprocess host kind response invokeId).exec s =
        (.ok result, last) ∧
      (Reported host frozen (lastError (commandPrefix s.event) lines)
          (lastResponse (commandPrefix s.event) lines) result <->
        Undisturbed host frozen exitCode
          (lastError (commandPrefix s.event) lines)
          (lastResponse (commandPrefix s.event) lines)) := by
  rcases exec_spawnOrRestoreSubprocess h with
    ⟨pipe, last, _, hexec, hresponse, herror, hfrozen⟩
  refine ⟨pipe.frozenKilled, _, last, hfrozen, hexec, ?_⟩
  rw [← hresponse, ← herror]
  exact reported_exitResult_iff

end Spawned

/-! ## A script that fails -/

def failingLine : Text := "-e1|x:1|[\"no pets\"]".toList

/-- The runner reports what the script has thrown, throws it again and exits
with code 1. -/
def failingHost : InvokeHost Unit :=
  { mailHost with
      spawnOrRestore := fun _ _ _ => return ⟨[failingLine], .ok (some 1)⟩ }

def failingCall : CallState Unit :=
  ⟨petCall none, ⟨none, ()⟩, []⟩

theorem commandPrefix_failingCall :
    commandPrefix failingCall.event = "-e1".toList := by
  decide

theorem readLine_failingLine :
    readLine "-e1".toList failingLine =
      .finalError "[\"no pets\"]".toList := by
  decide

def failingSpawned :
    Spawned failingHost .constructed none [] failingCall [failingLine]
      (some 1) where
  cwd := ["/upload".toList, "2410".toList, "12".toList, "1".toList, "e1".toList]
  outside := ()
  taskCwd := by decide
  session := rfl

theorem not_froze_failingSpawned : ¬ failingSpawned.Froze := by
  unfold Spawned.Froze
  rw [commandPrefix_failingCall]
  intro hfroze
  cases hfroze with
  | here hfreezes =>
      cases hfreezes with
      | intro hcommand _ _ _ =>
          cases hcommand with
          | intro hline _ _ =>
              rw [readLine_failingLine] at hline
              cases hline
  | later _ hrest => cases hrest

theorem lastError_failingCall :
    lastError (commandPrefix failingCall.event) [failingLine] =
      some "[\"no pets\"]".toList := by
  decide

theorem outcome_reported_iff_failing :
    exists frozen result last,
      (frozen = true <-> failingSpawned.Froze) ∧
      (spawnOrRestoreSubprocess failingHost .constructed none []).exec
        failingCall = (.ok result, last) ∧
      (Reported failingHost frozen
          (lastError (commandPrefix failingCall.event) [failingLine])
          (lastResponse (commandPrefix failingCall.event) [failingLine])
          result <->
        Undisturbed failingHost frozen (some 1)
          (lastError (commandPrefix failingCall.event) [failingLine])
          (lastResponse (commandPrefix failingCall.event) [failingLine])) :=
  outcome_reported_iff failingSpawned

/-- The error that was reported is lost: the message is the exit code. -/
theorem error_hidden_by_exitCode :
    ¬ failingSpawned.Froze ∧
      lastError (commandPrefix failingCall.event) [failingLine] =
        some "[\"no pets\"]".toList ∧
      exists result last,
        (spawnOrRestoreSubprocess failingHost .constructed none []).exec
          failingCall = (.ok result, last) ∧
        result.message = some "Task Subprocess exited with code 1".toList ∧
        ¬ Reported failingHost false (some "[\"no pets\"]".toList) none
          result := by
  refine ⟨not_froze_failingSpawned, lastError_failingCall, ?_⟩
  rcases exec_spawnOrRestoreSubprocess failingSpawned with
    ⟨pipe, last, _, hexec, _, _, hfrozen⟩
  have hrunning : ¬ ExitsClean pipe.frozenKilled (some 1) := by
    unfold ExitsClean
    simp
  rw [exitResult_of_not_clean hrunning] at hexec
  refine ⟨_, last, hexec, ?_, ?_⟩
  · decide
  · rintro ⟨_, hmessage⟩
    revert hmessage
    decide

end Invoke
end CallgentApi
