import NotificationDelivery.Deployment.Staffing
import NotificationDelivery.Service.AtRest
import NotificationDelivery.Service.StatusAgreement

/-!
# What one process guarantees

The conditions under which the statements about `System` hold are facts about the process: no
message is put back while its delivery runs, so no accepted notification is lost, wherever the
process is killed; and with one worker for each channel the status and the attempts agree, and
a process that is not killed has the provider deliver each notification at most once.
-/

namespace NotificationDelivery

open EventMachine

namespace Deployment

variable {env : Env} {d : Deployment} {start : Int} {events : List DeployedEvent}

/-- A channel never has more deliveries under way than workers. -/
theorem deliveries_bounded (env : Env) (start : Int) (events : List DeployedEvent) (d : Deployment)
    (hrun : run (Deployment.step env) (initial env.config start) events = some d) (c : Channel) :
    ((Finset.range d.system.handlers.next).filter fun h =>
      (d.system.handlers.get h).any fun w => w.channel = c).card ≤ env.config.workers := by
  have hd := run_deployed False (fun h => h.elim) hrun
  refine hd.staffed.card_le c _ fun h hmem => ?_
  obtain ⟨w, hget, hchannel⟩ := (Option.any_eq_true _ _).mp (Finset.mem_filter.mp hmem).2
  exact ⟨w, hget, by simpa using hchannel⟩

/-- The process is killed after the provider has accepted the notification and before the attempt is
recorded. The next process delivers it again. -/
def killedAfterSend : List DeployedEvent :=
  ((System.submission System.sample "id").map DeployedEvent.outside).append [.push .email 0 0,
    .take .email 0, .work .email 0, .work .email 0, .allowRequest .email 0 5,
    .finish .email 0 (.result "ref"), .report .email 0 6, .kill 7, .outside (.requeue 0),
    .push .email 0 0, .take .email 0, .work .email 0, .work .email 0, .allowRequest .email 0 8,
    .finish .email 0 (.result "ref"), .report .email 0 9, .work .email 0, .work .email 0,
    .work .email 0, .work .email 0]

theorem deliveries_bounded_killed_after_send :
    ∃ d, run (Deployment.step System.shipped) (initial System.shipped.config 0)
      killedAfterSend = some d ∧
        ((Finset.range d.system.handlers.next).filter fun h =>
          (d.system.handlers.get h).any fun w => w.channel = .email).card ≤ 4 := by
  have hsome : (run (Deployment.step System.shipped) (initial System.shipped.config 0)
      killedAfterSend).isSome = true := by decide +kernel
  obtain ⟨d, hrun⟩ := Option.isSome_iff_exists.mp hsome
  exact ⟨d, hrun, deliveries_bounded System.shipped 0 killedAfterSend d hrun .email⟩

/-- With at most one worker for each channel, wherever the process is killed: SENT means that an
attempt holds SUCCESS with a provider reference, an attempt that holds SUCCESS means SENT or a
live message, and without a kill the provider has delivered no notification twice. -/
theorem single_worker (env : Env) (hone : env.config.workersPerChannel ≤ 1) (start : Int)
    (events : List DeployedEvent) (d : Deployment)
    (hrun : run (Deployment.step env) (initial env.config start) events = some d) (n : String) :
    (∀ row, d.system.db.findById n = some row → row.status = .sent →
      ∃ a ∈ d.system.db.findByNotificationId n, a.status = .success ∧ a.providerRef.isSome) ∧
    (∀ a ∈ d.system.db.findByNotificationId n, a.status = .success →
      (∃ row, d.system.db.findById n = some row ∧ row.status = .sent) ∨ d.system.Alive n) ∧
    ((∀ now, .kill now ∉ events) → d.system.successes n ≤ 1) := by
  have hworkers : env.config.workers ≤ 1 := by
    unfold Config.workers
    omega
  have hd := run_deployed False (fun h => h.elim) hrun
  have hreach : Reaches (System.step env) (fun s event => System.crowds n s event = false)
      System.initial d.system :=
    hd.refines.mono fun _ _ hcalm => hcalm.single hworkers n
  have hview := System.reachable_agrees n hreach
  have hkeys := System.reachable_attempt_keys hreach
  refine ⟨fun row hrow hstatus => ?_, fun a ha hsuccess => ?_, fun hlives => ?_⟩
  · obtain ⟨k, hk⟩ := hview.agreeing.sent ⟨row, hrow, hstatus⟩
    obtain ⟨a, ha, hsuccess, href⟩ := hview.referenced.refs k hk
    exact ⟨a, ((Database.find_attempt_iff hkeys).mp ha).1, hsuccess, href⟩
  · have hk : (d.system.view n).Succeeded a.attemptNumber :=
      ⟨a, (Database.find_attempt_iff hkeys).mpr ⟨ha, rfl⟩, hsuccess⟩
    exact (hview.agreeing.pending _ hk).imp_right fun hconf => System.alive_view.mp hconf.alive
  · have hliving := run_deployed True (fun _ => hlives) hrun
    let invariant (v : View) : Prop := v.Placed env.config ∧ v.Once env.config
    have honce : invariant (d.system.view n) := by
      refine System.view_invariant hliving.refines ⟨View.placed_empty _, View.once_empty _⟩ ?_
      intro s event next _ hcalm hview hstep
      refine ⟨hview.1.step hstep, hview.2.step hview.1 (hcalm.crash trivial) (fun hover => ?_)
        hstep⟩
      have hnone := hcalm.apart hworkers
      rw [System.overlaps_of_view hover] at hnone
      exact absurd hnone (by simp)
    rw [← System.successes_view]
    exact honce.2.successes_le

/-- A process with one worker for each channel. -/
def oneWorker : Env := ⟨{ workersPerChannel := 1 }, fun key => key⟩

/-- Killed, it comes to SENT with a recorded attempt; as long as it is not killed, the provider has
delivered once. -/
theorem single_worker_killed_after_send :
    (∃ d row, run (Deployment.step oneWorker) (initial oneWorker.config 0) killedAfterSend =
        some d ∧ d.system.db.findById "id" = some row ∧ row.status = .sent ∧
      ∃ a ∈ d.system.db.findByNotificationId "id", a.status = .success ∧ a.providerRef.isSome) ∧
    ∃ d, run (Deployment.step oneWorker) (initial oneWorker.config 0) (killedAfterSend.take 14) =
      some d ∧ d.system.sends = [("id", .result "ref")] ∧ d.system.successes "id" ≤ 1 := by
  constructor
  · have hlast : (run (Deployment.step oneWorker) (initial oneWorker.config 0)
        killedAfterSend).map (fun d => (d.system.db.findById "id").map Notification.status) =
          some (some .sent) := by
      decide +kernel
    obtain ⟨d, hrun, hd⟩ := Option.map_eq_some_iff.mp hlast
    obtain ⟨row, hrow, hsent⟩ := Option.map_eq_some_iff.mp hd
    have hsingle := single_worker oneWorker (by decide) 0 killedAfterSend d hrun "id"
    exact ⟨d, row, hrun, hrow, hsent, hsingle.1 row hrow hsent⟩
  · have hlast : (run (Deployment.step oneWorker) (initial oneWorker.config 0)
        (killedAfterSend.take 14)).map (fun d => d.system.sends) =
          some [("id", .result "ref")] := by
      decide +kernel
    obtain ⟨d, hrun, hd⟩ := Option.map_eq_some_iff.mp hlast
    have hlives : ∀ now, .kill now ∉ killedAfterSend.take 14 := by
      simp [killedAfterSend, System.submission]
    have hsingle := single_worker oneWorker (by decide) 0 _ d hrun "id"
    exact ⟨d, hrun, hd, hsingle.2.2 hlives⟩

end Deployment

end NotificationDelivery
