import Parley.Proofs.Server.Threading

/-!
# Wired servers

Under fit settings a whole backlog goes into a fresh outbox, so in a threaded server no
payload waits for a transport whose outbox is open.
-/

namespace Parley

/-- A threaded server whose hub is settled. -/
structure Server.Wired (server : Server) : Prop extends server.Threaded where
  settled : server.broker.hub.Settled
  fits : server.broker.hub.settings.backlogCapacity ≤ server.broker.hub.settings.queueCapacity

namespace Server

variable {server : Server}

theorem Wired.new (settings : Settings) (startedAt : Stamp) (fit : settings.fault = none) :
    (Server.new settings startedAt).Wired where
  toThreaded := .new settings startedAt
  settled := .new settings startedAt
  fits := settings.backlogCapacity_le_queueCapacity fit

/-- Anybody may send a request that brings no outbox. -/
theorem Wired.submit (wired : server.Wired) {request : Request} (plain : request.outbox? = none) :
    (server.submit request).2.Wired where
  toThreaded := wired.toThreaded.submit plain
  settled := hub_submit server plain ▸ wired.settled
  fits := hub_submit server plain ▸ wired.fits

/-- Time passes. -/
theorem Wired.elapse (wired : server.Wired) (expiries : List Expiry) (now : Moment) :
    ({ server with broker := { server.broker with
        hub := { server.broker.hub with expiries, now } } } : Server).Wired where
  toThreaded := wired.toThreaded.elapse expiries now
  settled := wired.settled.extend (wired.settled.consistent.congr rfl rfl rfl)
    (fun _ _ present => present) (.refl _)
  fits := wired.fits

theorem Wired.tick (wired : server.Wired) (moment : Moment) : (server.tick moment).Wired :=
  tick_keeps server moment wired.elapse fun _ _ _ wired => wired.submit rfl

/-- Whatever a session does, a server stays wired. -/
theorem Wired.progress (wired : server.Wired) {key : OutboxId} {session later : Session}
    {box laterBox : Outbox} {request : Option Request} {carried added : List Payload}
    (present : server.sessions.get? key = some session)
    (found : server.broker.hub.outboxes.get? key = some box)
    (moves : session.Moves server box later laterBox request carried added) :
    (server.progress key later laterBox request).Wired := by
  have sameHub := hub_progress key moves
  refine ⟨wired.toThreaded.progress present found moves, ?_, ?_⟩
  · refine wired.settled.setOutbox (fun before same listening => ?_)
      (wired.settled.consistent.congr (by rw [sameHub]) (by rw [sameHub]) (by rw [sameHub]))
      (by rw [sameHub]) (by rw [sameHub])
    obtain rfl := Option.some.inj (found.symm.trans same)
    exact moves.isOpen listening
  · rw [sameHub]
    exact wired.fits

/-- A new session brings a fresh outbox. -/
theorem Wired.upgrade (wired : server.Wired) (admission : Admission) :
    (server.upgrade admission).2.Wired := by
  have threaded := wired.toThreaded.upgrade admission
  have opened : ({ server.broker.hub with
      outboxes := server.broker.hub.outboxes.set server.nextOutbox
        { capacity := server.broker.hub.settings.queueCapacity } } : Hub).Settled :=
    wired.settled.setOutbox
      (fun before found => absurd (wired.no_outbox.symm.trans found) (by simp))
      (wired.settled.consistent.congr rfl rfl rfl) rfl rfl
  cases running : server.broker.running with
  | true =>
      rw [upgrade_of_running running] at threaded ⊢
      exact ⟨threaded, opened, wired.fits⟩
  | false =>
      rw [upgrade_of_stopped running] at threaded ⊢
      exact ⟨threaded, opened.extend (opened.consistent.congr rfl rfl rfl)
        (fun _ _ present => present) (Outboxes.extends_release _ _), wired.fits⟩

theorem Wired.served (wired : server.Wired) {letter : Letter} {rest : List Letter}
    (running : server.broker.running = true) (letters : server.broker.mailbox = letter :: rest) :
    (server.served letter rest).Wired where
  toThreaded := wired.toThreaded.served running letters
  settled := wired.settled.serve wired.fits
    (wired.admits (by rw [letters]; exact List.mem_cons_self))
  fits := by
    simp only [Server.served, server.broker.hub.settings_serve letter.request]
    exact wired.fits

theorem Wired.halted (wired : server.Wired) : server.halted.Wired := by
  have turned := server.broker.turnsAway_stop
  have closed := wired.settled.closeAll
  have settings : server.broker.stop.hub.settings = server.broker.hub.settings :=
    turned.settings.trans server.broker.hub.settings_closeAll
  refine ⟨wired.toThreaded.halted, ?_, ?_⟩
  · exact closed.extend
      (closed.consistent.congr turned.settings turned.connections turned.roster)
      (fun id connection present => turned.connections ▸ present) turned.outboxes.extends
  · simp only [Server.halted, settings]
    exact wired.fits

/-- Every step keeps a server wired, when nobody but a session registers. -/
theorem Wired.step (wired : server.Wired) {step : ServerStep}
    (plain : ∀ request, step = .submit request → request.outbox? = none) :
    (server.step step).Wired := by
  apply step_keeps Wired wired.toThreaded step
  case idle => exact fun _ => wired
  case progress =>
    intro key session box later laterBox request carried added _ advances
    exact wired.progress advances.present advances.found advances.moves
  case upgrade => exact fun admission _ => wired.upgrade admission
  case submit => exact fun request same => wired.submit (plain request same)
  case tick => exact fun moment _ => wired.tick moment
  case served => exact fun letter rest _ running letters => wired.served running letters
  case halted => exact fun letter rest _ _ _ _ served => served.halted

end Server
end Parley
