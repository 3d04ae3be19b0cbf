import RdmaTransport.Fallible
import RdmaTransport.Internal.Run
import RdmaTransport.Rdma

/-!
# One peer of the handshake

`accept` and `connect` perform the same kinds of operations, so one view serves both: the page and
the regions of the peer, the addresses of its variables, and how far it is. What an operation means
for that last part is different for the two, and is a parameter: `advance`. The environment answers
freely, except that two variables do not share an address.

## Main definitions

* `Event`, `PeerView`, `PeerView.handler` — what happens to a peer

## Main results

* `ensures_registerLoop` — a registration loop touches only the regions
* `ensures_setUp` — what either side does first
-/

namespace RdmaTransport

open Interaction

/-! ### The view -/

/-- What an operation that has returned did. -/
inductive Event
  /-- A variable has been placed at an address. -/
  | placed (addr : UInt64) (conn : Connection)
  /-- A variable has been read. -/
  | fetched (addr : UInt64) (conn : Connection)
  /-- A receive has been posted at an address. -/
  | receiving (addr : UInt64)
  /-- `rdma_accept` or `rdma_connect` has succeeded. -/
  | linked
  /-- A work request has been posted. -/
  | posted (wr : IbvSendWr)
  /-- A completion has been polled. -/
  | polled (cq : Cq) (wc : IbvWc)
  /-- Bytes have been written to the page. -/
  | wrote (bytes : List UInt8)
  /-- The page has been read. -/
  | saw (page : Page)

/-- What a peer has. -/
structure PeerView (St : Type) where
  /-- Its page. -/
  cpuBuffer : Option MemBuffer
  /-- Its regions. -/
  regs : List IbvMr
  /-- The addresses of its variables. -/
  vars : List UInt64
  /-- How far it is. -/
  stage : St
  /-- It has disconnected. -/
  closed : Bool

namespace PeerView

variable {St : Type}

/-- Before the first operation. -/
def init (stage : St) : PeerView St := ⟨none, [], [], stage, false⟩

/-- The connection describes the page and one of the regions. -/
def Owns (v : PeerView St) (conn : Connection) (mr : IbvMr) (cpuBuffer : MemBuffer) : Prop :=
  conn = ⟨cpuBuffer.ptr, mr.rkey⟩ ∧ v.cpuBuffer = some cpuBuffer ∧ mr ∈ v.regs ∧
    mr.addr = cpuBuffer.ptr

/-- What the environment decides. -/
inductive Choice
  /-- A call returns this. -/
  | ret (r : CRet)
  /-- A CUDA call returns this. -/
  | code (c : UInt32)
  /-- `poll_cq` gives this back. -/
  | polled (p : PollRet)
  /-- A registration gives these keys. -/
  | keys (keys : Option (UInt32 × UInt32))
  /-- A page or a variable is placed here. -/
  | addr (a : UInt64)
  /-- A variable holds this when it is read. -/
  | conn (c : Connection)
  /-- The page is this when it is read. -/
  | page (p : Page)
  /-- Go on. -/
  | go

namespace Choice

/-- The return value of a call. -/
def ret? : Choice → Option CRet
  | ret r => some r
  | _ => none

/-- The return value of a CUDA call. -/
def code? : Choice → Option UInt32
  | code c => some c
  | _ => none

/-- What `poll_cq` gives back. -/
def polled? : Choice → Option PollRet
  | polled p => some p
  | _ => none

/-- The keys of a registration. -/
def keys? : Choice → Option (Option (UInt32 × UInt32))
  | keys ks => some ks
  | _ => none

/-- The address of a page or a variable. -/
def addr? : Choice → Option UInt64
  | addr a => some a
  | _ => none

/-- What a variable holds. -/
def conn? : Choice → Option Connection
  | conn c => some c
  | _ => none

/-- What the page holds. -/
def page? : Choice → Option Page
  | page p => some p
  | _ => none

/-- Go on. -/
def go? : Choice → Option Unit
  | go => some ()
  | _ => none

end Choice

variable (advance : St → Event → St) (v : PeerView St)

/-- Something has happened. -/
def on (e : Event) : PeerView St := { v with stage := advance v.stage e }

/-- A variable has been placed. -/
def place (a : UInt64) (conn : Connection) : PeerView St :=
  { v with vars := a :: v.vars, stage := advance v.stage (.placed a conn) }

/-- A region has been registered. -/
def register (mr : IbvMr) : PeerView St := { v with regs := mr :: v.regs }

/-- A call has returned, and had an effect if it succeeded. -/
def called (e : Event) (r : CRet) : PeerView St := if r.isOk then v.on advance e else v

/-- A poll has returned. -/
def polled (cq : Cq) : PollRet → PeerView St
  | .entry wc => v.on advance (.polled cq wc)
  | _ => v

@[simp] theorem closed_called (e : Event) (r : CRet) :
    (v.called advance e r).closed = v.closed := by
  rw [called]
  split <;> rfl

@[simp] theorem closed_polled (cq : Cq) (p : PollRet) :
    (v.polled advance cq p).closed = v.closed := by
  cases p <;> rfl

/-- The environment of a peer. -/
def handler : Handler iface (PeerView St) Choice
  | .ibvQueryQp, v, c | .ibvModifyQp _, v, c => c.ret?.map fun r => (r, v)
  | .rdmaDisconnect, v, c => c.ret?.map fun r => (r, { v with closed := v.closed || r.isOk })
  | .rdmaAccept, v, c | .rdmaConnect, v, c => c.ret?.map fun r => (r, v.called advance .linked r)
  | .ibvPostRecv wr, v, c =>
    c.ret?.map fun r => (r, v.called advance (.receiving wr.sge.addr) r)
  | .ibvPostSend wr, v, c => c.ret?.map fun r => (r, v.called advance (.posted wr) r)
  | .cuDeviceGet _, v, c | .cuDevicePrimaryCtxRetain, v, c | .cuCtxSetCurrent, v, c =>
    c.code?.map fun code => (code, v)
  | .newPage, v, c => c.addr?.map fun a => (⟨a⟩, { v with cpuBuffer := some ⟨a⟩ })
  | .ibvRegMr addr length _, v, c => c.keys?.map fun ks =>
    (ks, ks.elim v fun k => v.register ⟨addr, length, k.1, k.2⟩)
  | .letConn conn, v, c =>
    c.addr?.bind fun a => if a ∈ v.vars then none else some (a, v.place advance a conn)
  | .readConn addr, v, c => c.conn?.map fun conn => (conn, v.on advance (.fetched addr conn))
  | .ibvPollCq cq, v, c => c.polled?.map fun p => (p, v.polled advance cq p)
  | .writePage _ bytes, v, c => c.go?.map fun _ => ((), v.on advance (.wrote bytes))
  | .readPage _, v, c => c.page?.map fun p => (p, v.on advance (.saw p))
  | .observe _, v, c => c.go?.map fun _ => ((), v)
  | _, _, _ => none

end PeerView

/-! ### The rules of the calls -/

section Rules

variable {St α : Type} {advance : St → Event → St} {I : Op → PeerView St → Prop}
  {v v' : PeerView St}

theorem eq_of_map {β γ : Type} {o : Option β} {f : β → γ} {r : γ}
    (h : (o.map fun x => (f x, v)) = some (r, v')) : v' = v := by
  obtain ⟨_, -, heq⟩ := Option.map_eq_some_iff.mp h
  cases heq
  rfl

/-- A call that succeeds has its effect. -/
theorem eq_on_of_called {r : CRet} {name : String} {c : PeerView.Choice} {e : Event}
    (hr : (c.ret?.map fun r => (r, v.called advance e r)) = some (r, v'))
    (hok : rdmaCall name r = .ok ()) : v' = v.on advance e := by
  obtain ⟨r', -, heq⟩ := Option.map_eq_some_iff.mp hr
  cases heq
  cases hr : CRet.isOk r with
  | false =>
    obtain ⟨err, herr⟩ := rdmaCall_of_not_isOk name hr
    rw [herr] at hok
    cases hok
  | true => rw [PeerView.called, if_pos hr]

section Calls

variable {P : Unit → PeerView St → Prop}

theorem ensures_ibvPostRecv {wr : IbvRecvWr} (hI : I (.ibvPostRecv wr) v)
    (hP : P () (v.on advance (.receiving wr.sge.addr))) :
    (ibvPostRecv wr).Ensures (PeerView.handler advance) I P v :=
  ⟨hI, fun _ _ _ hr _ hok => eq_on_of_called hr hok ▸ hP⟩

theorem ensures_ibvPostSend {wr : IbvSendWr} (hI : I (.ibvPostSend wr) v)
    (hP : P () (v.on advance (.posted wr))) :
    (ibvPostSend wr).Ensures (PeerView.handler advance) I P v :=
  ⟨hI, fun _ _ _ hr _ hok => eq_on_of_called hr hok ▸ hP⟩

theorem ensures_rdmaAccept (hI : I .rdmaAccept v) (hP : P () (v.on advance .linked)) :
    rdmaAccept.Ensures (PeerView.handler advance) I P v :=
  ⟨hI, fun _ _ _ hr _ hok => eq_on_of_called hr hok ▸ hP⟩

theorem ensures_rdmaConnect (hI : I .rdmaConnect v) (hP : P () (v.on advance .linked)) :
    rdmaConnect.Ensures (PeerView.handler advance) I P v :=
  ⟨hI, fun _ _ _ hr _ hok => eq_on_of_called hr hok ▸ hP⟩

/-- A call without effect. -/
theorem ensures_frame {op : Op} {f : op.Ans → Except TransportErrors Unit} (hI : I op v)
    (hframe : ∀ c r v', PeerView.handler advance op v c = some (r, v') → v' = v) (hP : P () v) :
    Fallible.Ensures (PeerView.handler advance) I P (Task.call op fun r => .ret (f r)) v :=
  ⟨hI, fun c r v' hr _ _ => hframe c r v' hr ▸ hP⟩

theorem ensures_ibvQueryQp (hI : I .ibvQueryQp v) (hP : P () v) :
    ibvQueryQp.Ensures (PeerView.handler advance) I P v :=
  ensures_frame (f := rdmaCall "ibv_query_qp") hI (fun _ _ _ => eq_of_map) hP

theorem ensures_ibvModifyQp {flags : UInt32} (hI : I (.ibvModifyQp flags) v) (hP : P () v) :
    (ibvModifyQp flags).Ensures (PeerView.handler advance) I P v :=
  ensures_frame (f := rdmaCall "ibv_modify_qp") hI (fun _ _ _ => eq_of_map) hP

theorem ensures_cudaSetCurrentCtx (hI : I .cuCtxSetCurrent v) (hP : P () v) :
    cudaSetCurrentCtx.Ensures (PeerView.handler advance) I P v :=
  ensures_frame (f := cudaCall "cuCtxSetCurrent") hI (fun _ _ _ => eq_of_map) hP

theorem ensures_cudaDevicePrimaryCtxRetain {ordinal : Int} (hget : I (.cuDeviceGet ordinal) v)
    (hretain : I .cuDevicePrimaryCtxRetain v) (hP : P () v) :
    (cudaDevicePrimaryCtxRetain ordinal).Ensures (PeerView.handler advance) I P v := by
  refine Fallible.Ensures.andThen (P := fun _ v' => v' = v)
    ⟨hget, fun c r v' hr _ _ => eq_of_map hr⟩ ?_
  intro code v' hv
  subst hv
  exact Fallible.Ensures.andThen (P := fun _ v => v = v')
    (Fallible.ensures_ofExcept fun _ _ => rfl) fun _ v hv => hv ▸
    ensures_frame (f := cudaCall "cuDevicePrimaryCtxRetain") hretain (fun _ _ _ => eq_of_map) hP

end Calls

theorem ensures_pollComp {P : IbvWc → PeerView St → Prop} {cq : Cq} {op what : String}
    (hI : I (.ibvPollCq cq) v)
    (hP : ∀ wc, wc.status = ibvWcSuccess → P wc (v.on advance (.polled cq wc))) :
    (pollComp cq op what).Ensures (PeerView.handler advance) I P v := by
  rw [Fallible.Ensures, run_pollComp]
  refine ⟨hI, ?_⟩
  intro c p v' hr wc hwc
  obtain ⟨p', -, heq⟩ := Option.map_eq_some_iff.mp hr
  cases heq
  cases p with
  | entry wc' =>
    by_cases hstatus : wc'.status = ibvWcSuccess
    · rw [compResult_entry_of_success hstatus] at hwc
      cases hwc
      exact hP wc hstatus
    · obtain ⟨e, he⟩ := compResult_entry_of_failed op what hstatus
      rw [he] at hwc
      cases hwc
  | _ => cases hwc

theorem ensures_ibvRegMr {P : IbvMr → PeerView St → Prop} {addr : UInt64} {length : ℕ}
    {access : UInt32} (hI : I (.ibvRegMr addr length access) v)
    (hP : ∀ mr, mr.addr = addr → P mr (v.register mr)) :
    (ibvRegMr addr length access).Ensures (PeerView.handler advance) I P v := by
  refine ⟨hI, ?_⟩
  intro c ks v' hr
  obtain ⟨ks', -, heq⟩ := Option.map_eq_some_iff.mp hr
  cases heq
  cases ks with
  | none => exact nofun
  | some keys =>
    rintro mr ⟨⟩
    exact hP _ rfl

theorem ensures_newPage {P : MemBuffer → PeerView St → Prop} (hI : I .newPage v)
    (hP : ∀ buf, P buf { v with cpuBuffer := some buf }) :
    (Fallible.lift (Task.perform .newPage)).Ensures (PeerView.handler advance) I P v := by
  refine ⟨hI, ?_⟩
  intro c buf v' hr
  obtain ⟨a, -, heq⟩ := Option.map_eq_some_iff.mp hr
  cases heq
  rintro _ ⟨⟩
  exact hP _

theorem ensures_letConn {P : UInt64 → PeerView St → Prop} {conn : Connection}
    (hI : I (.letConn conn) v) (hP : ∀ a, a ∉ v.vars → P a (v.place advance a conn)) :
    (Fallible.lift (Task.perform (.letConn conn))).Ensures (PeerView.handler advance) I P v := by
  refine ⟨hI, ?_⟩
  intro c a v' hr
  obtain ⟨a', -, heq⟩ := Option.bind_eq_some_iff.mp hr
  split at heq
  · cases heq
  next hfresh =>
    cases heq
    rintro _ ⟨⟩
    exact hP a hfresh

theorem ensures_readConn {P : Connection → PeerView St → Prop} {addr : UInt64}
    (hI : I (.readConn addr) v) (hP : ∀ conn, P conn (v.on advance (.fetched addr conn))) :
    (Fallible.lift (Task.perform (.readConn addr))).Ensures (PeerView.handler advance) I P v := by
  refine ⟨hI, ?_⟩
  intro c conn v' hr
  obtain ⟨conn', -, heq⟩ := Option.map_eq_some_iff.mp hr
  cases heq
  rintro _ ⟨⟩
  exact hP conn

/-- Serialising succeeds when the bytes fit, and writes in either case. -/
theorem ensures_serializeInto {P : Except String Unit → PeerView St → Prop} {buf : MemBuffer}
    {bytes : List UInt8} (hI : I (.writePage buf bytes) v)
    (hfits : bytes.length ≤ cpuBufferBaseSize → P (.ok ()) (v.on advance (.wrote bytes)))
    (hlong : ¬ bytes.length ≤ cpuBufferBaseSize →
      P (.error writeZeroMsg) (v.on advance (.wrote bytes))) :
    (Fallible.lift (serializeInto buf bytes)).Ensures (PeerView.handler advance) I P v := by
  refine ⟨hI, ?_⟩
  intro c _ v' hr
  obtain ⟨_, -, heq⟩ := Option.map_eq_some_iff.mp hr
  cases heq
  by_cases hlen : bytes.length ≤ cpuBufferBaseSize
  · simp only [hlen, if_true]
    rintro _ ⟨⟩
    exact hfits hlen
  · simp only [hlen, if_false]
    rintro _ ⟨⟩
    exact hlong hlen

theorem ensures_slicePage {P : List UInt8 → PeerView St → Prop} {buf : MemBuffer} {size : ℕ}
    (hI : I (.readPage buf) v) (hpanic : ∀ page msg, I (.panic msg) (v.on advance (.saw page)))
    (hP : ∀ page h, P (Page.slice page size h) (v.on advance (.saw page))) :
    (Fallible.lift (slicePage buf size)).Ensures (PeerView.handler advance) I P v := by
  refine ⟨hI, ?_⟩
  intro c page v' hr
  obtain ⟨page', -, heq⟩ := Option.map_eq_some_iff.mp hr
  cases heq
  by_cases hlen : size ≤ cpuBufferBaseSize
  · simp only [hlen, dif_pos]
    rintro _ ⟨⟩
    exact hP page hlen
  · simp only [hlen, dif_neg, not_false_eq_true]
    exact ⟨hpanic page _, fun _ r => r.elim⟩

/-- All that has happened is that regions have been registered. -/
structure PeerView.Grown (v v' : PeerView St) : Prop where
  /-- The page is the same. -/
  cpuBuffer : v'.cpuBuffer = v.cpuBuffer
  /-- No variable has been placed. -/
  vars : v'.vars = v.vars
  /-- Nothing else has happened. -/
  stage : v'.stage = v.stage
  /-- The regions are still there. -/
  regs : ∀ mr ∈ v.regs, mr ∈ v'.regs

/-- **Registration** touches only the regions, and returns the bookkeeping of one region for each
buffer, in the order of the buffers. -/
theorem ensures_registerLoop {body : α → IbvMr → GPUMemBuffer → α} {bufs : List GPUMemBuffer}
    {acc : α} (hI : ∀ v', v.Grown v' → ∀ addr length access, I (.ibvRegMr addr length access) v') :
    (registerLoop body bufs acc).Ensures (PeerView.handler advance) I (fun r v' => v.Grown v' ∧
      ∃ regs : List (IbvMr × GPUMemBuffer), regs.map Prod.snd = bufs ∧
        r = regs.foldl (fun acc q => body acc q.1 q.2) acc) v := by
  have hrefl : v.Grown v := ⟨rfl, rfl, rfl, fun _ => id⟩
  suffices ∀ v', v.Grown v' → (registerLoop body bufs acc).Ensures (PeerView.handler advance) I
      (fun r v' => v.Grown v' ∧ ∃ regs : List (IbvMr × GPUMemBuffer), regs.map Prod.snd = bufs ∧
        r = regs.foldl (fun acc q => body acc q.1 q.2) acc) v' from this v hrefl
  intro v' hv
  induction bufs generalizing acc v' with
  | nil => exact Fallible.ensures_pure ⟨hv, [], rfl, rfl⟩
  | cons buffer rest ih =>
    refine Fallible.Ensures.andThen (P := fun mr v'' => v.Grown v'')
      (ensures_ibvRegMr (hI v' hv _ _ _) fun mr _ =>
        ⟨hv.cpuBuffer, hv.vars, hv.stage, fun m hm => List.mem_cons_of_mem _ (hv.regs m hm)⟩)
      fun mr v'' hv'' => (ih v'' hv'').mono ?_
    rintro _ v₃ ⟨hgrown, regs, rfl, rfl⟩
    exact ⟨hgrown, (mr, buffer) :: regs, rfl, rfl⟩

/-- **Setting up.** Either side makes its page and registers it, takes the context of the device and
registers its GPU buffers. Nothing of it shows in the stage. -/
theorem ensures_setUp {β : Type} {ordinal : Int} {body : α → IbvMr → GPUMemBuffer → α}
    {bufs : List GPUMemBuffer} {acc : α} {f : MemBuffer → IbvMr → α → Fallible β}
    {P : β → PeerView St → Prop} (hpage : I .newPage v)
    (hreg : ∀ addr length access v', I (.ibvRegMr addr length access) v')
    (hget : ∀ v', I (.cuDeviceGet ordinal) v') (hretain : ∀ v', I .cuDevicePrimaryCtxRetain v')
    (hset : ∀ v', I .cuCtxSetCurrent v')
    (hf : ∀ cpuBuffer cpuMr (regs : List (IbvMr × GPUMemBuffer)) v', v'.stage = v.stage →
      v'.Owns ⟨cpuBuffer.ptr, cpuMr.rkey⟩ cpuMr cpuBuffer → regs.map Prod.snd = bufs →
      (f cpuBuffer cpuMr (regs.foldl (fun acc q => body acc q.1 q.2) acc)).Ensures
        (PeerView.handler advance) I P v') :
    ((Fallible.lift (Task.perform .newPage)).andThen fun cpuBuffer =>
      (ibvRegMr cpuBuffer.ptr cpuBuffer.getSize mrAccess).andThen fun cpuMr =>
      (cudaDevicePrimaryCtxRetain ordinal).andThen fun _ =>
      cudaSetCurrentCtx.andThen fun _ =>
      (registerLoop body bufs acc).andThen (f cpuBuffer cpuMr)).Ensures
        (PeerView.handler advance) I P v := by
  refine .andThen (P := fun buf v₁ => v₁.stage = v.stage ∧ v₁.cpuBuffer = some buf)
    (ensures_newPage hpage fun buf => ⟨rfl, rfl⟩) ?_
  rintro cpuBuffer v₁ ⟨h₁, hcpu₁⟩
  refine .andThen (P := fun mr v₂ => v₂.stage = v.stage ∧
      v₂.Owns ⟨cpuBuffer.ptr, mr.rkey⟩ mr cpuBuffer)
    (ensures_ibvRegMr (hreg _ _ _ _) fun mr hmr => ⟨h₁, rfl, hcpu₁, List.mem_cons_self, hmr⟩) ?_
  rintro cpuMr v₂ ⟨h₂, hconn, hcpu₂, hmem, haddr⟩
  refine .andThen (P := fun _ v₃ => v₃ = v₂)
    (ensures_cudaDevicePrimaryCtxRetain (hget _) (hretain _) rfl) ?_
  intro _ v₃ h₃
  subst h₃
  refine .andThen (P := fun _ v₄ => v₄ = v₃) (ensures_cudaSetCurrentCtx (hset _) rfl) ?_
  intro _ v₄ h₄
  subst h₄
  refine .andThen
    (ensures_registerLoop fun v' _ addr length access => hreg addr length access v') ?_
  rintro _ v₅ ⟨hgrown, regs, hregs, rfl⟩
  exact hf cpuBuffer cpuMr regs v₅ (hgrown.stage.trans h₂)
    ⟨hconn, hgrown.cpuBuffer.trans hcpu₂, hgrown.regs _ hmem, haddr⟩ hregs

end Rules

end RdmaTransport
