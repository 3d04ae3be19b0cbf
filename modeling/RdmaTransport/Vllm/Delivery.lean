import RdmaTransport.Vllm.Ends

/-!
# What arrives

As long as no bytes land on a notification that the server has been told of and has not read, every
notification is read as it was written. So if the client's calls succeed, the server decodes a
prefix of what the client wrote; and if its polls do not fail and every transfer succeeds that has
a `Complete` behind it, what either side reports complete has been moved.

Neither condition is met by itself. The page has one slot, the server does not tell the client when
it has read it, and the client goes on after a transfer that failed.

## Main definitions

* `Linked` — the invariant of the whole system
* `Command.DistinctReqs` — no request is completed twice

## Main results

* `decoded_prefix_wrote` — the server decodes a prefix of what was written
* `moved_of_isComplete` — what either side reports complete has been moved
-/

namespace RdmaTransport

open Interaction

namespace Command

/-- No request is completed twice. -/
def DistinctReqs (cmds : List Command) : Prop := (cmds.filterMap reqId).Nodup

instance (cmds : List Command) : Decidable (DistinctReqs cmds) :=
  inferInstanceAs (Decidable (List.Nodup _))

theorem DistinctReqs.eq_of_getElem? {cmds : List Command} {i j : ℕ} {req : ReqId}
    (h : DistinctReqs cmds) (hi : cmds[i]? = some (.complete req))
    (hj : cmds[j]? = some (.complete req)) : i = j := by
  induction cmds generalizing i j with
  | nil => cases hi
  | cons c cs ih =>
    have hmem {k : ℕ} (hk : cs[k]? = some (.complete req)) : req ∈ cs.filterMap reqId :=
      List.mem_filterMap.mpr ⟨_, List.mem_of_getElem? hk, rfl⟩
    have htail : DistinctReqs cs := h.sublist ((List.sublist_cons_self c cs).filterMap reqId)
    cases i with
    | zero =>
      cases j with
      | zero => rfl
      | succ j =>
        cases hi
        exact absurd (hmem hj) (List.nodup_cons.mp h).1
    | succ i =>
      cases j with
      | zero =>
        cases hj
        exact absurd (hmem hi) (List.nodup_cons.mp h).1
      | succ j => rw [ih htail hi hj]

end Command

/-! ### The invariant -/

/-- Both programs follow their rules, both ends are in order, and what is decoded, pending or still
with the client is what the client wrote, up to losses. If `sound`, nothing is lost. -/
structure Linked (cmds : List Command) (sound : Bool) (s : Sys) : Prop where
  /-- The worker follows its rule. -/
  client : (Handler.within ClientView.handler transfersSucceed).Always (ClientRule cmds)
    (fun _ => Backed cmds) s.client.prog s.client.world
  /-- The handler follows its rule. -/
  server : ServerView.handler.Always ServerRule (fun _ => Listed) s.server.prog s.server.world
  /-- The client's end is in order. -/
  clientSide : ClientSide s.client.world s.wire
  /-- So is the server's, and every notification is accounted for. -/
  serverSide : ∃ pending, ServerSide s.server.world s.wire pending ∧
    (s.decoded ++ pending ++ flying s.client.world s.wire).Sublist s.wrote ∧
    (sound = true → s.decoded ++ pending ++ flying s.client.world s.wire = s.wrote)

section Steps

variable {cmds : List Command} {sound : Bool} {s s' : Sys}

theorem listed_init : Listed .init := by
  intro req hreq
  simp [ServerView.init, CompletionReqs.new, CompletionReqs.isReqComplete] at hreq

theorem linked_init (session : Session) (n : ℕ) (cpuMr : IbvMr) (cpuBuffer : MemBuffer) (m : ℕ)
    (clientPage serverPage : Page) :
    Linked cmds sound (.init session cmds n cpuMr cpuBuffer m clientPage serverPage) where
  client := always_clientWorker session cmds n
  server := always_serverHandler cpuMr cpuBuffer m listed_init rfl
  clientSide := ⟨rfl, nofun⟩
  serverSide := ⟨[], ⟨rfl, rfl, rfl⟩, List.Sublist.refl _, fun _ => rfl⟩

theorem linked_client {choice : ClientView.Choice} (h : Linked cmds sound s)
    (hg : Handler.permits transfersSucceed s.client choice = true)
    (hsound : sound = true → Handler.permits Sys.callsSucceed s.client choice = true)
    (hs : s.step (.client choice) = some s') : Linked cmds sound s' := by
  obtain ⟨op, k, r, v', wire, hprog, hv, hw, rfl⟩ := Sys.step_client hs
  obtain ⟨hclient, hserver, hcside, pending, hsside, hsub, hall⟩ := h
  simp only [Handler.permits, hprog] at hg hsound
  rw [hprog] at hclient
  obtain ⟨hcside', new, hwrote, hfsub, hfall⟩ := side_client hclient.head hg hcside hv hw
  obtain ⟨hpage, hrecvs, hcq⟩ := Wire.client_frame hw
  refine ⟨hclient.2 choice r v' (Handler.within_eq_some.mpr ⟨hg, hv⟩), hserver, hcside', pending,
    hsside.congr hpage hrecvs hcq, ?_, fun hsnd => ?_⟩
  · have hmore : (s.decoded ++ pending ++ (flying s.client.world s.wire ++ new)).Sublist
        v'.wrote := by
      rw [← List.append_assoc, hwrote]
      exact hsub.append (List.Sublist.refl new)
    exact ((List.Sublist.refl _).append hfsub).trans hmore
  · change s.decoded ++ pending ++ flying v' wire = v'.wrote
    rw [hfall (hsound hsnd), ← List.append_assoc, hall hsnd, hwrote]
    rfl

theorem linked_server {choice : ServerView.Choice} (h : Linked cmds sound s)
    (hs : s.step (.server choice) = some s') : Linked cmds sound s' := by
  obtain ⟨op, k, r, v', wire, hprog, hv, hw, rfl⟩ := Sys.step_server hs
  obtain ⟨hclient, hserver, hcside, pending, hsside, hsub, hall⟩ := h
  rw [hprog] at hserver
  obtain ⟨pending', hsside', htold⟩ := side_server hserver.head hsside hv hw
  obtain ⟨hcpage, hspage, hsq⟩ := Wire.server_frame hw
  have hkeep : v'.decoded ++ pending' ++ flying s.client.world wire =
      s.decoded ++ pending ++ flying s.client.world s.wire := by
    rw [htold, flying_congr hsq]
    rfl
  exact ⟨hclient, hserver.2 choice r v' hv, hcside.congr hcpage hspage hsq, pending', hsside',
    hkeep ▸ hsub, fun hsnd => hkeep.trans (hall hsnd)⟩

theorem linked_read (h : Linked cmds sound s) (hs : s.step .read = some s') :
    Linked cmds sound s' := by
  obtain ⟨buf, k, hprog, rfl⟩ := Sys.step_read hs
  obtain ⟨hclient, hserver, hcside, pending, hsside, hsub, hall⟩ := h
  rw [hprog] at hserver
  have hsaw : ∀ page, (s.server.world.sawPage page).decoded = s.server.world.decoded := by
    intro page
    rw [ServerView.sawPage]
    split <;> rfl
  have hkeep : (s.server.world.sawPage s.wire.serverPage).decoded ++ pending ++
      flying s.client.world s.wire = s.decoded ++ pending ++ flying s.client.world s.wire := by
    rw [hsaw]
    rfl
  exact ⟨hclient, hserver.2 (.page s.wire.serverPage) _ _ rfl, hcside, pending,
    side_sawPage hserver.head hsside, hkeep ▸ hsub, fun hsnd => hkeep.trans (hall hsnd)⟩

/-- A step of the connection that keeps both ends in order and loses nothing. -/
theorem linked_wire {w' : Wire} (h : Linked cmds sound s)
    (hw : ∀ pending, ServerSide s.server.world s.wire pending → ClientSide s.client.world w' ∧
      ∃ pending', ServerSide s.server.world w' pending' ∧
        pending' ++ flying s.client.world w' = pending ++ flying s.client.world s.wire) :
    Linked cmds sound { s with wire := w' } := by
  obtain ⟨hclient, hserver, -, pending, hsside, hsub, hall⟩ := h
  obtain ⟨hcside', pending', hsside', htold⟩ := hw pending hsside
  have hkeep : s.decoded ++ pending' ++ flying s.client.world w' =
      s.decoded ++ pending ++ flying s.client.world s.wire := by
    rw [List.append_assoc, htold, List.append_assoc]
  exact ⟨hclient, hserver, hcside', pending', hsside', hkeep.symm ▸ hsub,
    fun hsnd => hkeep.trans (hall hsnd)⟩

/-- **One step** keeps the invariant. -/
theorem linked_step {l : Sys.Label} (h : Linked cmds sound s)
    (hundisturbed : s.undisturbed l = true)
    (hg : s.clientPermits transfersSucceed l = true)
    (hsound : sound = true → s.clientPermits Sys.callsSucceed l = true)
    (hs : s.step l = some s') : Linked cmds sound s' := by
  cases l with
  | client choice => exact linked_client h hg hsound hs
  | server choice => exact linked_server h hs
  | read => exact linked_read h hs
  | place n =>
    obtain ⟨w', hw, rfl⟩ := Option.map_eq_some_iff.mp hs
    have hunread : s.wire.recvCq = [] ∧ ∀ wc, s.server.world.stage ≠ .polled wc := by
      simp only [Sys.undisturbed, Sys.unread, Bool.not_eq_true', Bool.or_eq_false_iff,
        Bool.not_eq_false', List.isEmpty_iff] at hundisturbed
      refine ⟨hundisturbed.1, ?_⟩
      intro wc hwc
      rw [hwc] at hundisturbed
      cases hundisturbed.2
    refine linked_wire h ?_
    intro pending hsside
    obtain ⟨hc, hsv, hf⟩ := side_place h.clientSide hsside hunread hw
    exact ⟨hc, pending, hsv, by rw [hf]⟩
  | finish =>
    obtain ⟨w', hw, rfl⟩ := Option.map_eq_some_iff.mp hs
    exact linked_wire h fun pending hsside => side_finish h.clientSide hsside hw
  | fail status =>
    obtain ⟨w', hw, rfl⟩ := Option.map_eq_some_iff.mp hs
    refine linked_wire h ?_
    intro pending hsside
    obtain ⟨hc, hsv, hf⟩ := side_fail h.clientSide hsside hw
    exact ⟨hc, pending, hsv, by rw [hf]⟩

theorem Linked.backed (h : Linked cmds sound s) : Backed cmds s.client.world := by
  have hclient := h.client
  cases hprog : s.client.prog with
  | ret o => rw [hprog] at hclient; exact hclient
  | vis op k => rw [hprog] at hclient; exact hclient.head.1

theorem Linked.listed (h : Linked cmds sound s) : Listed s.server.world := by
  have hserver := h.server
  cases hprog : s.server.prog with
  | ret o => rw [hprog] at hserver; exact hserver
  | vis op k => rw [hprog] at hserver; exact hserver.head.1

end Steps

/-! ### Every notification, once and in order -/

namespace Sys

/-- The client's calls succeed, and no bytes land on an unread notification. -/
def deliversAll (s : Sys) (l : Label) : Bool := s.clientPermits callsSucceed l && s.undisturbed l

/-- No poll of the client fails, every transfer succeeds that has a `Complete` behind it, and no
bytes land on an unread notification. -/
def movesAll (s : Sys) (l : Label) : Bool := s.clientPermits transfersSucceed l && s.undisturbed l

end Sys

section Results

variable {s : Sys} (session : Session) (cmds : List Command) (n : ℕ) (cpuMr : IbvMr)
  (cpuBuffer : MemBuffer) (m : ℕ) (clientPage serverPage : Page)

/-- **Every notification arrives once, in order and unmixed**: in every run in which the client's
calls succeed and no bytes land on an unread notification, what the server has decoded is at any
time a prefix of what the client has written. -/
theorem decoded_prefix_wrote
    (h : Reach Sys.step Sys.deliversAll
      (.init session cmds n cpuMr cpuBuffer m clientPage serverPage) s) :
    s.decoded <+: s.wrote := by
  have hlinked : Linked cmds true s := by
    refine h.invariant (linked_init session n cpuMr cpuBuffer m clientPage serverPage) ?_
    intro s l s' hs hg hstep
    obtain ⟨hcalls, hundisturbed⟩ := (Bool.and_eq_true _ _).mp hg
    refine linked_step hs hundisturbed ?_ (fun _ => hcalls) hstep
    exact Sys.clientPermits_mono (fun _ _ _ => transfersSucceed_of_callsSucceed) hcalls
  obtain ⟨pending, -, -, hall⟩ := hlinked.serverSide
  rw [← hall rfl, List.append_assoc]
  exact List.prefix_append _ _

/-- The labels of a `Complete` arm up to its post. -/
def announceLabels : List Sys.Label :=
  [.client .go, .client .go, .client .go, .client .go, .client .go, .client (.ret (.ret 0 0))]

/-- The labels of the rest of the arm: the poll, and the lock is dropped. -/
def announcedLabels : List Sys.Label :=
  [.client (.polled (.entry ⟨ibvWcSuccess, 1, 0⟩)), .client .go, .client .go]

theorem decoded_prefix_wrote_bare :
    ∃ s, Reach Sys.step Sys.deliversAll
      (.init bareSession [.complete [1], .disconnect] 2 ⟨8192, cpuBufferBaseSize, 11, 11⟩ ⟨8192⟩ 2
        .zero .zero) s ∧
      s.decoded = [⟨0, some [1]⟩] ∧ s.decoded <+: s.wrote := by
  obtain ⟨s, hs, hdecoded⟩ : ∃ s, Reach Sys.step Sys.deliversAll
      (.init bareSession [.complete [1], .disconnect] 2 ⟨8192, cpuBufferBaseSize, 11, 11⟩ ⟨8192⟩ 2
        .zero .zero) s ∧ s.decoded = [⟨0, some [1]⟩] :=
    exists_reach_of_execWithin (announceLabels ++ [.place 9, .server (.ret (.ret 0 0)), .finish,
      .server (.polled (.entry ⟨ibvWcSuccess, ibvWcRecvRdmaWithImm, htonl 14⟩)), .read,
      .server .go]) ⟨_, rfl, rfl⟩
  exact ⟨s, hs, hdecoded, decoded_prefix_wrote bareSession _ 2 _ _ 2 _ _ hs⟩

/-- All but the last byte of the second notification land before the server has read the first,
whose completion it has not polled yet. It decodes the second one in its place. -/
theorem notification_overwritten :
    ∃ s, Reach Sys.step (Sys.clientPermits Sys.callsSucceed)
      (.init bareSession [.complete [1], .complete [2], .disconnect] 3
        ⟨8192, cpuBufferBaseSize, 11, 11⟩ ⟨8192⟩ 3 .zero .zero) s ∧
      s.wrote = [⟨0, some [1]⟩, ⟨0, some [2]⟩] ∧ s.decoded = [⟨0, some [2]⟩] ∧
      ¬ s.decoded <+: s.wrote := by
  obtain ⟨s, hs, hwrote, hdecoded⟩ : ∃ s, Reach Sys.step (Sys.clientPermits Sys.callsSucceed)
      (.init bareSession [.complete [1], .complete [2], .disconnect] 3
        ⟨8192, cpuBufferBaseSize, 11, 11⟩ ⟨8192⟩ 3 .zero .zero) s ∧
      s.wrote = [⟨0, some [1]⟩, ⟨0, some [2]⟩] ∧ s.decoded = [⟨0, some [2]⟩] :=
    exists_reach_of_execWithin
      (.server (.ret (.ret 0 0)) :: announceLabels ++ .finish :: announcedLabels ++
        announceLabels ++ [.place 4095,
          .server (.polled (.entry ⟨ibvWcSuccess, ibvWcRecvRdmaWithImm, htonl 14⟩)), .read,
          .server .go]) ⟨_, rfl, rfl, rfl⟩
  refine ⟨s, hs, hwrote, hdecoded, ?_⟩
  rw [hwrote, hdecoded]
  decide

/-- **Complete means moved**: in every run in which no poll of the client fails, every transfer
succeeds that has a `Complete` behind it and no bytes land on an unread notification, whenever
either side reports a request complete, the transfers queued before its `Complete` have ended with
a success completion of their own work request. -/
theorem moved_of_isComplete (hdistinct : Command.DistinctReqs cmds)
    (h : Reach Sys.step Sys.movesAll
      (.init session cmds n cpuMr cpuBuffer m clientPage serverPage) s) {req : ReqId}
    (hreq : s.client.world.isComplete req = true ∨ s.server.world.isComplete req = true)
    {i : ℕ} (hi : cmds[i]? = some (.complete req)) (k : ℕ) (c : Command) (hk : k < i)
    (hc : cmds[k]? = some c) (hmoves : c.Moves) : k + 1 ∈ s.client.world.succeeded := by
  have hlinked : Linked cmds false s := by
    refine h.invariant (linked_init session n cpuMr cpuBuffer m clientPage serverPage) ?_
    intro s l s' hs hg hstep
    obtain ⟨htransfers, hundisturbed⟩ := (Bool.and_eq_true _ _).mp hg
    exact linked_step hs hundisturbed htransfers nofun hstep
  have haccounted : Accounted cmds s.client.world req := by
    rcases hreq with hreq | hreq
    · exact hlinked.backed.2 req (Bool.and_eq_true _ _ ▸ hreq).2
    · obtain ⟨pending, -, hsub, -⟩ := hlinked.serverSide
      obtain ⟨note, hnote, hnreq⟩ := hlinked.listed req (Bool.and_eq_true _ _ ▸ hreq).2
      refine hlinked.backed.1 note (hsub.subset ?_) req hnreq
      exact List.mem_append_left _ (List.mem_append_left _ hnote)
  obtain ⟨j, hj, hbefore⟩ := haccounted
  obtain rfl := hdistinct.eq_of_getElem? hi hj
  exact hbefore k c hk hc hmoves

/-- A session with one buffer on each side. -/
def oneBufferSession : Session :=
  { bareSession with
    localGpuBuffers := AList.insert 65536 (⟨65536, 256, 2, 2⟩, ⟨65536, 256⟩) ∅
    remoteGpuBuffers := Client.remoteMap [⟨131072, 12⟩] }

/-- The queue of the two runs below. -/
def pushAndComplete : List Command :=
  [.send ⟨65536, 0, 8⟩ ⟨131072, 0, 8⟩, .complete [1], .disconnect]

theorem moved_of_isComplete_push :
    ∃ s, Reach Sys.step Sys.movesAll
      (.init oneBufferSession pushAndComplete 3 ⟨8192, cpuBufferBaseSize, 11, 11⟩ ⟨8192⟩ 3 .zero
        .zero) s ∧
      s.server.world.isComplete [1] = true ∧ 1 ∈ s.client.world.succeeded := by
  obtain ⟨s, hs, hreq⟩ : ∃ s, Reach Sys.step Sys.movesAll
      (.init oneBufferSession pushAndComplete 3 ⟨8192, cpuBufferBaseSize, 11, 11⟩ ⟨8192⟩ 3 .zero
        .zero) s ∧ s.server.world.isComplete [1] = true :=
    exists_reach_of_execWithin ([.client .go, .client (.ret (.ret 0 0)), .finish,
      .client (.polled (.entry ⟨ibvWcSuccess, 1, 0⟩))] ++ announceLabels ++
      [.server (.ret (.ret 0 0)), .place 20, .finish,
      .server (.polled (.entry ⟨ibvWcSuccess, ibvWcRecvRdmaWithImm, htonl 14⟩)), .read,
      .server .go, .server .go, .server .go, .server .go]) ⟨_, rfl, rfl⟩
  exact ⟨s, hs, hreq, moved_of_isComplete oneBufferSession pushAndComplete 3 _ _ 3 _ _
    (by decide) hs (.inr hreq) (i := 1) rfl 0 _ (by decide) rfl (by decide)⟩

/-- The post of a push is refused, and the `Complete` behind it is carried out all the same. -/
theorem refused_push_reported :
    ∃ s, Reach Sys.step anyStep
      (.init oneBufferSession pushAndComplete 3 ⟨8192, cpuBufferBaseSize, 11, 11⟩ ⟨8192⟩ 3 .zero
        .zero) s ∧
      s.client.world.isComplete [1] = true ∧ s.server.world.isComplete [1] = true ∧
      1 ∉ s.client.world.succeeded :=
  exists_reach_of_execWithin
    ([.client .go, .client (.ret (.ret (-1) 12)), .client .go] ++ announceLabels ++
      [.server (.ret (.ret 0 0)), .finish] ++ announcedLabels ++
      [.server (.polled (.entry ⟨ibvWcSuccess, ibvWcRecvRdmaWithImm, htonl 14⟩)), .read,
      .server .go, .server .go, .server .go, .server .go]) ⟨_, rfl, rfl, rfl, by decide⟩

end Results

end RdmaTransport
