import RdmaTransport.Footprints
import RdmaTransport.OwnRequests
import RdmaTransport.Registration

/-!
# What the two sides post with the key of their page

Either side allocates one page and registers it before anything else, and what it posts for the
connection itself it posts with the key of that region: the receive and the send of
`establish_conn`, the offer of the GPU buffers, the notifications. Nothing ties the address of a
request to the region whose key it carries.

`Placement` is what one side has in memory: its page, the `Connection`s on its stack, the keys of
its regions, and the local ranges of everything that it has handed to the posting calls and that is
not inline. The environment places a new object anywhere where there is room and never gives out a
key twice; otherwise it answers as it likes.

The first request of either side is the receive of `establish_conn`. It has the key of the page and
the range of a `Connection` on the stack. Every later request with that key has the range of the
page.

## Main definitions

* `Placement`, `Placement.handler` — one side in memory
* `Placement.Inside` — a range lies in the registered page
* `Placement.Rule` — when an operation may be performed
* `Driven` — the two sides, as the two processes drive them

## Main results

* `Placement.always_handlerTask`, `Placement.always_clientTask` — both sides follow the rule
* `Placement.inside_iff` — which requests lie in the page
-/

namespace RdmaTransport

open Interaction
open OwnRequests (Span)

/-! ### Memory -/

/-- The bytes of a page. -/
def pageSpan (buf : MemBuffer) : Span := ⟨buf.ptr.toNat, buf.getSize⟩

/-- The bytes of a `Connection` on the stack. -/
def connSpan (addr : UInt64) : Span := ⟨addr.toNat, Connection.sizeOf⟩

/-- What one side of a connection has placed in memory, registered and handed over. -/
structure Placement where
  /-- Its page. -/
  page : Option MemBuffer
  /-- The `Connection`s on its stack. -/
  conns : List UInt64
  /-- The region of the page. -/
  cpuMr : Option IbvMr
  /-- The keys of its regions. -/
  lkeys : List UInt32
  /-- The local ranges of what it has handed to `ibv_post_send` and `ibv_post_recv`, whether or not
  that was accepted, oldest first and without the inline ones. -/
  handed : List IbvSge

/-- The local range of a work request, unless the card has read it when the call returns. -/
def handedSge : Op → Option IbvSge
  | .ibvPostSend wr => if wr.isInline then none else some wr.sge
  | .ibvPostRecv wr => some wr.sge
  | _ => none

namespace Placement

/-- Before the first operation. -/
def init : Placement := ⟨none, [], none, [], []⟩

variable (v : Placement)

/-- What is in memory. -/
def objects : List Span := v.page.toList.map pageSpan ++ v.conns.map connSpan

/-- There is room for an object: it fits into memory and has no byte in common with another. -/
def Free (s : Span) : Prop := s.start + s.length ≤ 2 ^ 64 ∧ ∀ o ∈ v.objects, ¬ o.Overlaps s

instance (s : Span) : Decidable (v.Free s) := inferInstanceAs (Decidable (_ ∧ _))

/-- A region has been registered. The first one at the address of the page is that of the page. -/
def registered (mr : IbvMr) : Placement :=
  { v with
    cpuMr := v.cpuMr.or (if v.page = some ⟨mr.addr⟩ then some mr else none)
    lkeys := v.lkeys ++ [mr.lkey] }

/-- What an operation that has been answered has done to memory and to the regions. -/
def placed : (op : Op) → op.Ans → Option Placement
  | .newPage, buf => if v.Free (pageSpan buf) then some { v with page := some buf } else none
  | .letConn _, addr =>
    if v.Free (connSpan addr) then some { v with conns := v.conns ++ [addr] } else none
  | .ibvRegMr addr length _, some (lkey, rkey) =>
    if lkey ∈ v.lkeys then none else some (v.registered ⟨addr, length, lkey, rkey⟩)
  | _, _ => some v

/-- What an operation has handed over. -/
def hand (sge : Option IbvSge) : Placement := { v with handed := v.handed ++ sge.toList }

/-- How the environment answers. An operation without an answer has not returned yet. -/
abbrev Answers := (op : Op) → Option op.Ans

/-- The environment of one side. -/
def handler : Handler iface Placement Answers := fun op v answers =>
  (answers op).bind fun r => (v.placed op r).map fun v' => (r, v'.hand (handedSge op))

/-- The range lies in the page. -/
def Inside (sge : IbvSge) : Prop := ∃ buf ∈ v.page, buf.Contains sge.addr sge.length.toNat

/-- Everything handed over with the key of the page lies in the page. -/
def Confined : Prop :=
  ∀ cpuMr ∈ v.cpuMr, ∀ sge ∈ v.handed, sge.lkey = cpuMr.lkey → v.Inside sge

/-- The range is a `Connection` on the stack. -/
def OnStack (sge : IbvSge) : Prop :=
  sge.addr ∈ v.conns ∧ sge.length = UInt32.ofNat Connection.sizeOf

/-- The page and its region. -/
structure Owns (cpuMr : IbvMr) (cpuBuffer : MemBuffer) : Prop where
  /-- The page. -/
  page : v.page = some cpuBuffer
  /-- The region. -/
  region : v.cpuMr = some cpuMr
  /-- Its key has been given out. -/
  key : cpuMr.lkey ∈ v.lkeys

/-- What may be handed over: first a `Connection` on the stack, and from then on the key of the page
only over the page. -/
def Fine (sge : IbvSge) : Prop :=
  ∃ cpuMr cpuBuffer, v.Owns cpuMr cpuBuffer ∧
    if v.handed = [] then v.OnStack sge
    else sge = pageSge cpuMr cpuBuffer ∨ sge.lkey ≠ cpuMr.lkey

/-- When an operation may be performed. -/
def Rule (op : Op) (v : Placement) : Prop :=
  (op = .newPage → v.page = none) ∧ ∀ sge ∈ handedSge op, v.Fine sge

/-- What a side that follows the rule keeps. -/
structure Laid : Prop where
  /-- The page is not on the stack. -/
  apart : ∀ buf ∈ v.page, ∀ addr ∈ v.conns, ¬ (pageSpan buf).Overlaps (connSpan addr)
  /-- The first request. -/
  first : ∀ sge ∈ v.handed.head?, v.OnStack sge
  /-- The others. -/
  rest : ∀ sge ∈ v.handed.tail, ∃ cpuMr cpuBuffer, v.page = some cpuBuffer ∧
    v.cpuMr = some cpuMr ∧ (sge = pageSge cpuMr cpuBuffer ∨ sge.lkey ≠ cpuMr.lkey)

variable {v} {v' : Placement} {op : Op} {cpuMr mr : IbvMr} {cpuBuffer : MemBuffer} {sge : IbvSge}

/-! ### One operation -/

/-- **All an operation can do** to memory and to the regions. -/
theorem placed_eq_some {r : op.Ans} (h : v.placed op r = some v') :
    v' = v ∨
    (∃ buf, op = .newPage ∧ v.Free (pageSpan buf) ∧ v' = { v with page := some buf }) ∨
    (∃ addr, v.Free (connSpan addr) ∧ v' = { v with conns := v.conns ++ [addr] }) ∨
    ∃ mr : IbvMr, mr.lkey ∉ v.lkeys ∧ v' = v.registered mr := by
  cases op with
  | newPage =>
    rw [placed, Option.ite_none_right_eq_some] at h
    obtain ⟨hfree, hv⟩ := h
    exact .inr (.inl ⟨r, rfl, hfree, (Option.some.inj hv).symm⟩)
  | letConn conn =>
    rw [placed, Option.ite_none_right_eq_some] at h
    obtain ⟨hfree, hv⟩ := h
    exact .inr (.inr (.inl ⟨r, hfree, (Option.some.inj hv).symm⟩))
  | ibvRegMr addr length access =>
    cases r with
    | none => exact .inl (Option.some.inj h).symm
    | some keys =>
      rw [placed, Option.ite_none_left_eq_some] at h
      obtain ⟨hkey, hv⟩ := h
      exact .inr (.inr (.inr ⟨_, hkey, (Option.some.inj hv).symm⟩))
  | _ => exact .inl (Option.some.inj h).symm

@[simp] theorem hand_none : v.hand none = v := by
  rw [hand, Option.toList_none, List.append_nil]

/-- An operation that posts does nothing else. -/
theorem placed_of_handedSge {r : op.Ans} (h : handedSge op = some sge) :
    v.placed op r = some v := by
  cases op with
  | ibvPostSend wr => rfl
  | ibvPostRecv wr => rfl
  | _ => cases h

theorem handed_placed {r : op.Ans} (h : v.placed op r = some v') : v'.handed = v.handed := by
  rcases placed_eq_some h with rfl | ⟨buf, -, -, rfl⟩ | ⟨addr, -, rfl⟩ | ⟨mr, -, rfl⟩ <;> rfl

theorem handler_eq_some {answers : Answers} {r : op.Ans}
    (h : handler op v answers = some (r, v')) :
    ∃ v₁, v.placed op r = some v₁ ∧ v' = v₁.hand (handedSge op) := by
  obtain ⟨r', -, h⟩ := Option.bind_eq_some_iff.mp h
  obtain ⟨v₁, hplaced, h⟩ := Option.map_eq_some_iff.mp h
  cases h
  exact ⟨v₁, hplaced, rfl⟩

/-- Making no second page keeps the page, its region and its key. -/
theorem Owns.handler {answers : Answers} {r : op.Ans} (hv : v.Owns cpuMr cpuBuffer)
    (hop : op ≠ .newPage) (h : Placement.handler op v answers = some (r, v')) :
    v'.Owns cpuMr cpuBuffer := by
  obtain ⟨v₁, hplaced, rfl⟩ := handler_eq_some h
  rcases placed_eq_some hplaced with rfl | ⟨buf, rfl, -⟩ | ⟨addr, -, rfl⟩ | ⟨mr, -, rfl⟩
  · exact ⟨hv.page, hv.region, hv.key⟩
  · exact absurd rfl hop
  · exact ⟨hv.page, hv.region, hv.key⟩
  · refine ⟨hv.page, ?_, List.mem_append_left _ hv.key⟩
    rw [registered, hv.region]
    rfl

/-- Memory and regions only grow. -/
theorem Laid.placed {r : op.Ans} (hv : v.Laid) (hop : op = .newPage → v.page = none)
    (h : v.placed op r = some v') : v'.Laid := by
  rcases placed_eq_some h with rfl | ⟨buf, rfl, hfree, rfl⟩ | ⟨addr, hfree, rfl⟩ | ⟨mr, -, rfl⟩
  · exact hv
  · refine ⟨?_, hv.first, ?_⟩
    · rintro _ ⟨⟩ addr haddr hover
      refine hfree.2 _ (List.mem_append_right _ (List.mem_map_of_mem haddr)) ?_
      exact ⟨hover.2, hover.1⟩
    · intro sge hsge
      obtain ⟨_, _, hpage, -⟩ := hv.rest sge hsge
      cases hpage.symm.trans (hop rfl)
  · refine ⟨?_, fun sge hsge => ?_, hv.rest⟩
    · intro buf hbuf a ha
      rcases List.mem_append.mp ha with ha | ha
      · exact hv.apart buf hbuf a ha
      · rw [List.mem_singleton.mp ha]
        refine hfree.2 _ (List.mem_append_left _ (List.mem_map_of_mem ?_))
        exact Option.mem_toList.mpr hbuf
    · exact ⟨List.mem_append_left _ (hv.first sge hsge).1, (hv.first sge hsge).2⟩
  · refine ⟨hv.apart, hv.first, fun sge hsge => ?_⟩
    obtain ⟨cpuMr, cpuBuffer, hpage, hmr, hor⟩ := hv.rest sge hsge
    refine ⟨cpuMr, cpuBuffer, hpage, ?_, hor⟩
    rw [registered, hmr]
    rfl

/-- **Handing over** what may be handed over. -/
theorem Laid.hand (hv : v.Laid) (hsge : v.Fine sge) :
    (v.hand (some sge)).Laid := by
  obtain ⟨cpuMr, cpuBuffer, howns, hfine⟩ := hsge
  cases hhanded : v.handed with
  | nil =>
    have hhand : (v.hand (some sge)).handed = [sge] := by
      simp [Placement.hand, hhanded]
    rw [if_pos hhanded] at hfine
    refine ⟨hv.apart, ?_, ?_⟩
    · rw [hhand]
      rintro _ ⟨⟩
      exact hfine
    · rw [hhand]
      exact nofun
  | cons first rest =>
    have hhand : (v.hand (some sge)).handed = first :: (rest ++ [sge]) := by
      simp [Placement.hand, hhanded]
    rw [if_neg (by simp [hhanded])] at hfine
    refine ⟨hv.apart, ?_, ?_⟩
    · rw [hhand]
      rintro _ ⟨⟩
      exact hv.first first (by simp [hhanded])
    · rw [hhand]
      intro sge' hsge'
      rcases List.mem_append.mp hsge' with hsge' | hsge'
      · exact hv.rest sge' (by simpa [hhanded] using hsge')
      · rw [List.mem_singleton.mp hsge']
        exact ⟨cpuMr, cpuBuffer, howns.page, howns.region, hfine⟩

/-- **One operation** that follows the rule. -/
theorem Laid.handler {answers : Answers} {r : op.Ans} (hv : v.Laid) (hrule : Rule op v)
    (h : Placement.handler op v answers = some (r, v')) : v'.Laid := by
  obtain ⟨v₁, hplaced, rfl⟩ := handler_eq_some h
  cases hsge : handedSge op with
  | none =>
    rw [hand_none]
    exact hv.placed hrule.1 hplaced
  | some sge =>
    obtain rfl := Option.some.inj ((placed_of_handedSge hsge).symm.trans hplaced)
    exact hv.hand (hrule.2 sge hsge)

/-! ### Parts of a side -/

variable {α β : Type}

/-- The page is registered and nothing has been handed over. -/
def Ready (cpuMr : IbvMr) (cpuBuffer : MemBuffer) (v : Placement) : Prop :=
  v.Owns cpuMr cpuBuffer ∧ v.handed = []

/-- The page is registered and something has been handed over. -/
def Started (cpuMr : IbvMr) (cpuBuffer : MemBuffer) (v : Placement) : Prop :=
  v.Owns cpuMr cpuBuffer ∧ v.handed ≠ []

/-- The operations that post nothing and make no page. -/
def Quiet : Op → Prop
  | .newPage | .ibvPostSend _ | .ibvPostRecv _ => False
  | _ => True

theorem handedSge_of_quiet (h : Quiet op) : op ≠ .newPage ∧ handedSge op = none := by
  cases op <;> first | exact h.elim | exact ⟨nofun, rfl⟩

theorem rule_of_quiet (h : Quiet op) : Rule op v := by
  obtain ⟨hpage, hnone⟩ := handedSge_of_quiet h
  refine ⟨fun hop => absurd hop hpage, ?_⟩
  rw [hnone]
  exact nofun

theorem handedSge_of_onPage (h : OnPage cpuMr cpuBuffer op) :
    op ≠ .newPage ∧
      ∀ sge ∈ handedSge op, sge = pageSge cpuMr cpuBuffer ∨ sge.lkey ≠ cpuMr.lkey := by
  cases op with
  | newPage => exact h.elim
  | ibvPostSend wr =>
    refine ⟨nofun, ?_⟩
    intro sge hsge
    obtain ⟨hinline, hsge⟩ := Option.ite_none_left_eq_some.mp hsge
    cases hsge
    exact h.resolve_left hinline
  | ibvPostRecv wr =>
    refine ⟨nofun, ?_⟩
    rintro _ ⟨⟩
    exact .inl h
  | _ => exact ⟨nofun, nofun⟩

theorem Ready.handler {answers : Answers} {r : op.Ans} (hv : Ready cpuMr cpuBuffer v)
    (hop : Quiet op) (h : Placement.handler op v answers = some (r, v')) :
    Ready cpuMr cpuBuffer v' := by
  obtain ⟨hpage, hnone⟩ := handedSge_of_quiet hop
  refine ⟨hv.1.handler hpage h, ?_⟩
  obtain ⟨v₁, hplaced, rfl⟩ := handler_eq_some h
  rw [hnone, hand_none, handed_placed hplaced, hv.2]

theorem Started.handler {answers : Answers} {r : op.Ans} (hv : Started cpuMr cpuBuffer v)
    (hop : op ≠ .newPage) (h : Placement.handler op v answers = some (r, v')) :
    Started cpuMr cpuBuffer v' := by
  refine ⟨hv.1.handler hop h, ?_⟩
  obtain ⟨v₁, hplaced, rfl⟩ := handler_eq_some h
  rw [Placement.hand, handed_placed hplaced]
  exact List.append_ne_nil_of_left_ne_nil hv.2 _

/-- A part that posts nothing. -/
theorem ensures_of_quiet {p : Fallible α} (hp : p.run.Only Quiet)
    (hv : Ready cpuMr cpuBuffer v) :
    p.Ensures handler Rule (fun _ => Ready cpuMr cpuBuffer) v := by
  refine (Handler.Always.of_only hp hv (fun _ _ hop _ => rule_of_quiet hop) ?_).mono
    fun _ _ h _ _ => h
  exact fun _ _ _ _ _ hop hv hr => hv.handler hop hr

/-- A part that posts the page. -/
theorem always_of_onPage {p : Task α} (hp : p.Only (OnPage cpuMr cpuBuffer))
    (hv : Started cpuMr cpuBuffer v) :
    handler.Always Rule (fun _ => Started cpuMr cpuBuffer) p v := by
  refine Handler.Always.of_only hp hv ?_ ?_
  · intro op v hop hv
    obtain ⟨hpage, hsges⟩ := handedSge_of_onPage hop
    refine ⟨fun hop => absurd hop hpage, fun sge hsge => ⟨cpuMr, cpuBuffer, hv.1, ?_⟩⟩
    rw [if_neg hv.2]
    exact hsges sge hsge
  · intro op v answers r v' hop hv hr
    exact hv.handler (handedSge_of_onPage hop).1 hr

theorem ensures_of_onPage {p : Fallible α} (hp : p.run.Only (OnPage cpuMr cpuBuffer))
    (hv : Started cpuMr cpuBuffer v) :
    p.Ensures handler Rule (fun _ => Started cpuMr cpuBuffer) v :=
  (always_of_onPage hp hv).mono fun _ _ h _ _ => h

theorem ensures_perform {P : op.Ans → Placement → Prop} (hrule : Rule op v)
    (hP : ∀ answers r v', handler op v answers = some (r, v') → P r v') :
    (Fallible.lift (Task.perform op)).Ensures handler Rule P v := by
  refine ⟨hrule, ?_⟩
  rintro answers r v' hr _ ⟨⟩
  exact hP answers r v' hr

theorem ensures_ibvRegMr {addr : UInt64} {length : ℕ} {access : UInt32}
    {P : IbvMr → Placement → Prop}
    (hP : ∀ mr : IbvMr, mr.addr = addr → mr.lkey ∉ v.lkeys → P mr (v.registered mr)) :
    (ibvRegMr addr length access).Ensures handler Rule P v := by
  refine ⟨rule_of_quiet trivial, ?_⟩
  intro answers r v' hr
  obtain ⟨v₁, hplaced, rfl⟩ := handler_eq_some hr
  cases r with
  | none => exact nofun
  | some keys =>
    rw [placed, Option.ite_none_left_eq_some] at hplaced
    obtain ⟨hkey, hv⟩ := hplaced
    cases hv
    rintro _ ⟨⟩
    rw [show handedSge (.ibvRegMr addr length access) = none from rfl, hand_none]
    exact hP _ rfl hkey

/-- A call that leaves memory and regions alone. -/
theorem ensures_call {f : op.Ans → Except TransportErrors α} (hop : Quiet op)
    (hplaced : ∀ r, v.placed op r = some v) :
    Fallible.Ensures handler Rule (fun _ v' => v' = v) (Task.call op fun r => .ret (f r)) v := by
  refine ⟨rule_of_quiet hop, ?_⟩
  intro answers r v' hr _ _
  obtain ⟨v₁, hv₁, rfl⟩ := handler_eq_some hr
  obtain rfl := Option.some.inj ((hplaced r).symm.trans hv₁)
  rw [(handedSge_of_quiet hop).2, hand_none]

/-- **The page.** Either side makes it and registers it first. -/
theorem ensures_ownPage {f : MemBuffer → IbvMr → Fallible β} {P : β → Placement → Prop}
    (hf : ∀ cpuBuffer cpuMr v, Ready cpuMr cpuBuffer v →
      (f cpuBuffer cpuMr).Ensures handler Rule P v) :
    ((Fallible.lift (Task.perform .newPage)).andThen fun cpuBuffer =>
      (ibvRegMr cpuBuffer.ptr cpuBuffer.getSize mrAccess).andThen
        (f cpuBuffer)).Ensures handler Rule P .init := by
  refine (ensures_perform (P := fun buf v => v = { init with page := some buf }) ?_ ?_).andThen ?_
  · exact ⟨fun _ => rfl, nofun⟩
  · intro answers buf v' hr
    obtain ⟨v₁, hplaced, rfl⟩ := handler_eq_some hr
    rw [placed, Option.ite_none_right_eq_some] at hplaced
    obtain ⟨-, hv⟩ := hplaced
    cases hv
    rfl
  · rintro cpuBuffer _ rfl
    refine (ensures_ibvRegMr (P := fun cpuMr => Ready cpuMr cpuBuffer) ?_).andThen (hf cpuBuffer)
    intro cpuMr haddr _
    refine ⟨⟨rfl, ?_, List.mem_append_right _ (List.mem_singleton_self _)⟩, rfl⟩
    rw [registered, if_pos (congrArg (fun a => some (MemBuffer.mk a)) haddr.symm)]
    rfl

/-- **Registering GPU buffers.** None gets the key of the page. -/
theorem ensures_registerLoop {A : β → Prop} {body : β → IbvMr → GPUMemBuffer → β}
    (hbody : ∀ acc mr buffer, A acc → mr.lkey ≠ cpuMr.lkey → A (body acc mr buffer))
    (bufs : List GPUMemBuffer) {acc : β} (hacc : A acc) (hv : Ready cpuMr cpuBuffer v) :
    (registerLoop body bufs acc).Ensures handler Rule
      (fun acc v => A acc ∧ Ready cpuMr cpuBuffer v) v := by
  induction bufs generalizing acc v with
  | nil => exact Fallible.ensures_pure ⟨hacc, hv⟩
  | cons buffer rest ih =>
    refine (ensures_ibvRegMr (P := fun mr v => mr.lkey ≠ cpuMr.lkey ∧ Ready cpuMr cpuBuffer v)
      ?_).andThen ?_
    · intro mr _ hkey
      refine ⟨fun heq => hkey (heq ▸ hv.1.key), ⟨hv.1.page, ?_, List.mem_append_left _ hv.1.key⟩,
        hv.2⟩
      rw [registered, hv.1.region]
      rfl
    · rintro mr v₁ ⟨hkey, hv₁⟩
      exact ih (hbody acc mr buffer hacc hkey) hv₁

/-- **Setting up.** Either side makes its page and registers it, takes the context of the device and
registers its GPU buffers. -/
theorem ensures_setUp {A : IbvMr → α → Prop} {gpuOrdinal : Int}
    {body : α → IbvMr → GPUMemBuffer → α} (bufs : List GPUMemBuffer) {acc : α}
    {f : MemBuffer → IbvMr → α → Fallible β} {P : β → Placement → Prop}
    (hbody : ∀ (cpuMr : IbvMr) acc mr buffer, A cpuMr acc → mr.lkey ≠ cpuMr.lkey →
      A cpuMr (body acc mr buffer)) (hacc : ∀ cpuMr, A cpuMr acc)
    (hf : ∀ cpuBuffer cpuMr acc v, A cpuMr acc → Ready cpuMr cpuBuffer v →
      (f cpuBuffer cpuMr acc).Ensures handler Rule P v) :
    ((Fallible.lift (Task.perform .newPage)).andThen fun cpuBuffer =>
      (ibvRegMr cpuBuffer.ptr cpuBuffer.getSize mrAccess).andThen fun cpuMr =>
      (cudaDevicePrimaryCtxRetain gpuOrdinal).andThen fun _ =>
      cudaSetCurrentCtx.andThen fun _ =>
      (registerLoop body bufs acc).andThen (f cpuBuffer cpuMr)).Ensures handler Rule P .init := by
  refine ensures_ownPage fun cpuBuffer cpuMr v hv => ?_
  refine (ensures_of_quiet (only_cudaDevicePrimaryCtxRetain trivial trivial) hv).andThen ?_
  intro _ v hv
  refine Fallible.Ensures.andThen (ensures_of_quiet (Fallible.only_call trivial) hv) ?_
  intro _ v hv
  refine (ensures_registerLoop (hbody cpuMr) bufs (hacc cpuMr) hv).andThen ?_
  rintro acc v ⟨hacc, hv⟩
  exact hf cpuBuffer cpuMr acc v hacc hv

/-- **The first request** of either side: a receive over a `Connection` on the stack. -/
theorem ensures_stackRecv {f : UInt64 → Fallible β} {P : β → Placement → Prop}
    (hv : Ready cpuMr cpuBuffer v)
    (hf : ∀ addr v, Started cpuMr cpuBuffer v → (f addr).Ensures handler Rule P v) :
    ((Fallible.lift (Task.perform (.letConn .zero))).andThen fun addr =>
      (rdmaPostRecv addr Connection.sizeOf cpuMr).andThen fun _ => f addr).Ensures handler
        Rule P v := by
  refine Fallible.Ensures.andThen
    (P := fun (addr : UInt64) v => Ready cpuMr cpuBuffer v ∧ addr ∈ v.conns)
    (ensures_perform (rule_of_quiet trivial) ?_) ?_
  · intro answers addr v' hr
    refine ⟨hv.handler ?_ hr, ?_⟩
    · trivial
    obtain ⟨v₁, hplaced, rfl⟩ := handler_eq_some hr
    rw [placed, Option.ite_none_right_eq_some] at hplaced
    obtain ⟨-, hv₁⟩ := hplaced
    cases hv₁
    exact List.mem_append_right _ (List.mem_singleton_self _)
  · rintro addr v₁ ⟨hv₁, haddr⟩
    refine Fallible.Ensures.andThen (P := fun _ => Started cpuMr cpuBuffer) ⟨⟨nofun, ?_⟩, ?_⟩
      fun _ => hf addr
    · rintro _ ⟨⟩
      refine ⟨cpuMr, cpuBuffer, hv₁.1, ?_⟩
      rw [if_pos hv₁.2]
      exact ⟨haddr, rfl⟩
    · intro answers r v' hr a _
      refine ⟨hv₁.1.handler ?_ hr, ?_⟩
      · exact nofun
      obtain ⟨v₂, hplaced, rfl⟩ := handler_eq_some hr
      exact List.append_ne_nil_of_right_ne_nil _ (List.cons_ne_nil _ _)

/-! ### The server -/

theorem ensures_server_establishConn (hv : Ready cpuMr cpuBuffer v) :
    (Server.establishConn cpuMr cpuBuffer).Ensures handler Rule
      (fun _ => Started cpuMr cpuBuffer) v := by
  refine ensures_stackRecv hv fun addr v hv => ?_
  refine ensures_of_onPage ?_ hv
  refine Fallible.only_andThen (Fallible.only_call trivial) fun _ _ => ?_
  refine Fallible.only_andThen (only_pollComp trivial) fun _ _ => ?_
  refine Fallible.only_andThen (Fallible.only_call trivial) fun _ _ => ?_
  refine Fallible.only_andThen
    (Fallible.only_call (.inl (IbvSendWr.isInline_of_flags rfl))) fun _ _ => ?_
  refine Fallible.only_andThen (only_pollComp trivial) fun _ _ => ?_
  exact ⟨trivial, fun _ => trivial⟩

theorem ensures_accept (gpuOrdinal : Int) (gpuBuffers : List GPUMemBuffer) :
    (Server.accept gpuOrdinal gpuBuffers).Ensures handler Rule
      (fun out => Started out.2.1.1 out.2.1.2) .init := by
  rw [Server.accept_eq]
  refine Fallible.Ensures.andThen (ensures_call trivial fun _ => rfl) ?_
  rintro _ _ rfl
  refine Fallible.Ensures.andThen (ensures_call trivial fun _ => rfl) ?_
  rintro _ _ rfl
  refine ensures_setUp (A := fun _ _ => True) gpuBuffers (fun _ _ _ _ _ _ => trivial)
    (fun _ => trivial) fun cpuBuffer cpuMr _ v _ hv => ?_
  refine (ensures_server_establishConn hv).andThen ?_
  intro clientConn v hv
  refine Fallible.Ensures.andThen (ensures_of_onPage
    ((only_serializeInto trivial).bind fun _ _ => trivial) hv) ?_
  intro _ v hv
  refine Fallible.Ensures.andThen (ensures_of_onPage (Fallible.only_ofExcept _) hv) ?_
  intro _ v hv
  refine Fallible.Ensures.andThen (ensures_of_onPage
    (Fallible.only_call (.inr (.inl rfl))) hv) ?_
  intro _ v hv
  refine (ensures_of_onPage (only_pollComp trivial) hv).andThen ?_
  intro _ v hv
  exact Fallible.ensures_pure hv

/-- A part that posts nothing, in any state. -/
theorem always_of_quiet {p : Task α} (hp : p.Only Quiet) :
    handler.Always Rule (fun _ _ => True) p v :=
  Handler.Always.of_only hp trivial (fun _ _ hop _ => rule_of_quiet hop) fun _ _ _ _ _ _ _ _ =>
    trivial

/-- **The server** follows the rule. -/
theorem always_handlerTask (gpuOrdinal : Int) (gpuBuffers : List GPUMemBuffer) (n : ℕ) :
    handler.Always Rule (fun _ _ => True) (Server.handlerTask gpuOrdinal gpuBuffers n) .init := by
  rw [Server.handlerTask_eq_bind]
  refine Handler.Always.bind (ensures_accept gpuOrdinal gpuBuffers) ?_
  intro r v hv
  cases r with
  | ok out =>
    refine (always_of_onPage ?_ (hv out rfl)).mono fun _ _ _ => trivial
    exact (Server.only_handler _ _ n).mono Server.onPage_of_serving
  | error e =>
    exact always_of_quiet (p := Task.call (.observe (.error _ e)) fun _ => Server.handlerEnd)
      ⟨trivial, fun _ => Server.only_handlerEnd trivial trivial⟩

/-! ### The client -/

theorem ensures_client_establishConn (hv : Ready cpuMr cpuBuffer v) :
    (Client.establishConn cpuMr cpuBuffer).Ensures handler Rule
      (fun _ => Started cpuMr cpuBuffer) v := by
  refine ensures_stackRecv hv fun addr v hv => ensures_of_onPage ?_ hv
  refine Fallible.only_andThen (Fallible.only_call trivial) fun _ _ => ?_
  refine Fallible.only_andThen (Fallible.only_call trivial) fun _ _ => ?_
  refine Fallible.only_andThen
    (Fallible.only_call (.inl (IbvSendWr.isInline_of_flags rfl))) fun _ _ => ?_
  refine Fallible.only_andThen (only_pollComp trivial) fun _ _ => ?_
  refine Fallible.only_andThen (only_pollComp trivial) fun _ _ => ?_
  exact ⟨trivial, fun _ => trivial⟩

theorem keysApart_keep {acc : LocalGpuBuffers} (h : KeysApart cpuMr acc)
    (hkey : mr.lkey ≠ cpuMr.lkey) (buffer : GPUMemBuffer) :
    KeysApart cpuMr (Client.keep acc mr buffer) := by
  intro k q hq
  by_cases hk : k = buffer.basePtr
  · rw [Client.keep, hk, AList.lookup_insert] at hq
    cases hq
    exact hkey
  · rw [Client.keep, AList.lookup_insert_ne hk] at hq
    exact h k q hq

theorem ensures_connect (gpuOrdinal : Int) (gpuBuffers : List GPUMemBuffer) :
    (Client.connect gpuOrdinal gpuBuffers).Ensures handler Rule
      (fun out v => KeysApart out.2.1.1 out.2.2.1 ∧ Started out.2.1.1 out.2.1.2 v) .init := by
  refine Fallible.Ensures.andThen (ensures_call trivial fun _ => rfl) ?_
  rintro _ _ rfl
  refine ensures_setUp (A := KeysApart) gpuBuffers (fun _ _ _ buffer h hkey =>
    keysApart_keep h hkey buffer) (fun _ _ _ h => by cases h)
    fun cpuBuffer cpuMr localGpuBufferMap v hkeys hv => ?_
  refine (ensures_client_establishConn hv).andThen ?_
  intro serverConn v hv
  refine Fallible.Ensures.andThen (ensures_of_onPage (Fallible.only_call rfl) hv) ?_
  intro _ v hv
  refine (ensures_of_onPage (only_pollComp trivial) hv).andThen ?_
  intro wc v hv
  dsimp only
  split
  · exact Fallible.ensures_fail
  · refine Fallible.Ensures.andThen (ensures_of_onPage ?_ hv) ?_
    · exact (only_slicePage trivial trivial).bind fun _ _ => trivial
    intro _ v hv
    refine Fallible.Ensures.andThen (ensures_of_onPage (Fallible.only_ofExcept _) hv) ?_
    intro _ v hv
    exact Fallible.ensures_pure ⟨hkeys, hv⟩

/-- **The client** follows the rule. -/
theorem always_clientTask (gpuOrdinal : Int) (localBuffer : TensorBlocks) (n : ℕ) :
    handler.Always Rule (fun _ _ => True) (Client.clientTask gpuOrdinal localBuffer n) .init := by
  rw [Client.clientTask_eq_bind]
  refine Handler.Always.bind (ensures_connect gpuOrdinal _) ?_
  intro r v hv
  cases r with
  | ok out =>
    obtain ⟨cpuConn, ⟨cpuMr, cpuBuffer⟩, localGpuBuffers, remoteGpuBuffers⟩ := out
    obtain ⟨hkeys, hstarted⟩ := hv _ rfl
    refine (always_of_onPage ?_ hstarted).mono fun _ _ _ => trivial
    exact Client.onPage_worker
      (s := ⟨cpuConn, cpuMr, cpuBuffer, localGpuBuffers, remoteGpuBuffers⟩) hkeys n
  | error e => exact always_of_quiet (Task.only_panic trivial)

/-! ### Whole runs -/

/-- The two sides: a handler of the server, and a client with its worker. -/
inductive Driven : Task (Option Unit) → Prop
  /-- `accept`, and then the loop of `listen`'s handler. -/
  | server (gpuOrdinal : Int) (gpuBuffers : List GPUMemBuffer) (n : ℕ) :
    Driven (Server.handlerTask gpuOrdinal gpuBuffers n)
  /-- `connect`, and then the worker. -/
  | client (gpuOrdinal : Int) (localBuffer : TensorBlocks) (n : ℕ) :
    Driven (Client.clientTask gpuOrdinal localBuffer n)

/-- The runs of a side. -/
abbrev Runs (task : Task (Option Unit)) (c : Config iface Placement (Option Unit)) : Prop :=
  Reach (Handler.step handler) anyStep ⟨.init, task⟩ c

variable {task : Task (Option Unit)} {c : Config iface Placement (Option Unit)}

theorem Driven.always (h : Driven task) : handler.Always Rule (fun _ _ => True) task .init := by
  cases h with
  | server gpuOrdinal gpuBuffers n => exact always_handlerTask gpuOrdinal gpuBuffers n
  | client gpuOrdinal localBuffer n => exact always_clientTask gpuOrdinal localBuffer n

theorem laid_init : Laid .init := ⟨nofun, nofun, nofun⟩

/-- **Every reachable state** of a side. -/
theorem laid_of_runs (htask : Driven task) (h : Runs task c) : c.world.Laid := by
  refine Handler.Always.invariant (c := ⟨.init, task⟩) htask.always laid_init h ?_
  exact fun _ _ _ _ _ hrule hv hr => hv.handler hrule hr

/-- A `Connection` on the stack does not lie in the page. -/
theorem Laid.not_inside (hv : v.Laid) (hsge : v.OnStack sge) : ¬ v.Inside sge := by
  rintro ⟨buf, hbuf, hle, hend⟩
  refine hv.apart buf hbuf sge.addr hsge.1 ⟨?_, ?_⟩
  · exact Nat.lt_of_le_of_lt hle (Nat.lt_add_of_pos_right (by decide : 0 < Connection.sizeOf))
  · have hpos : 0 < sge.length.toNat := by
      rw [hsge.2]
      decide
    exact Nat.lt_of_lt_of_le (Nat.lt_add_of_pos_right hpos) hend

theorem inside_pageSge (hpage : v.page = some cpuBuffer) :
    v.Inside (pageSge cpuMr cpuBuffer) :=
  ⟨cpuBuffer, hpage, Nat.le_refl _, Nat.le_refl _⟩

/-- **The key of the page.** On either side, whatever is answered and wherever the page and the
stack are: a request with the key of the page lies in the page if and only if it is not the first
request that the side hands over, which is the receive of its `establish_conn`. -/
theorem inside_iff (htask : Driven task) (h : Runs task c) (hmr : c.world.cpuMr = some cpuMr)
    {i : ℕ} (hsge : c.world.handed[i]? = some sge) (hkey : sge.lkey = cpuMr.lkey) :
    c.world.Inside sge ↔ i ≠ 0 := by
  have hlaid : c.world.Laid := laid_of_runs htask h
  cases i with
  | zero =>
    have hstack : c.world.OnStack sge := by
      refine hlaid.first sge ?_
      rwa [List.head?_eq_getElem?]
    exact iff_of_false (hlaid.not_inside hstack) fun hne => hne rfl
  | succ i =>
    have hmem : sge ∈ c.world.handed.tail := by
      refine List.mem_of_getElem? (i := i) ?_
      rwa [List.getElem?_tail]
    obtain ⟨mr, buf, hpage, hmr', hor⟩ := hlaid.rest sge hmem
    obtain rfl : cpuMr = mr := Option.some.inj (hmr.symm.trans hmr')
    obtain rfl := hor.resolve_right (not_not_intro hkey)
    exact iff_of_true (inside_pageSge hpage) i.succ_ne_zero

/-- Every call succeeds. The page is at `4096` and a variable at `addr`. -/
def plain (addr : UInt64) : Answers
  | .letConn _ => some addr
  | .ibvQueryQp | .rdmaAccept => some (.ret 0 0)
  | .writePage _ _ => some ()
  | op => (obliging op ()).map Prod.fst

/-- The offer of the GPU buffers is the second request of the server. -/
theorem inside_iff_offer : ∃ c, Runs (Server.handlerTask 0 [] 0) c ∧
    ∃ cpuMr sge, c.world.cpuMr = some cpuMr ∧ c.world.handed[1]? = some sge ∧
      sge.lkey = cpuMr.lkey ∧ (c.world.Inside sge ↔ 1 ≠ 0) := by
  obtain ⟨c, hc, cpuMr, sge, hmr, hsge, hkey⟩ : ∃ c, Runs (Server.handlerTask 0 [] 0) c ∧
      ∃ cpuMr sge, c.world.cpuMr = some cpuMr ∧ c.world.handed[1]? = some sge ∧
        sge.lkey = cpuMr.lkey :=
    exists_reach_of_execWithin (List.replicate 9 (plain 8192) ++ List.replicate 8 (plain 8208))
      ⟨_, rfl, _, _, rfl, rfl, rfl⟩
  exact ⟨c, hc, cpuMr, sge, hmr, hsge, hkey, inside_iff (.server 0 [] 0) hc hmr hsge hkey⟩

/-- The receive that `establish_conn` posts for the peer's `Connection`, on either side. -/
theorem stack_receive_outside :
    (∃ c, Runs (Server.handlerTask 0 [] 0) c ∧ ¬ c.world.Confined) ∧
      ∃ c, Runs (Client.clientTask 0 [] 0) c ∧ ¬ c.world.Confined := by
  refine ⟨exists_reach_of_execWithin (List.replicate 9 (plain 8192)) ⟨_, rfl, ?_⟩,
    exists_reach_of_execWithin (List.replicate 8 (plain 8192)) ⟨_, rfl, ?_⟩⟩
  · intro h
    obtain ⟨_, ⟨⟩, -, hend⟩ := h _ rfl _ (List.mem_singleton_self _) rfl
    exact absurd hend (by decide)
  · intro h
    obtain ⟨_, ⟨⟩, -, hend⟩ := h _ rfl _ (List.mem_singleton_self _) rfl
    exact absurd hend (by decide)

end Placement

end RdmaTransport
