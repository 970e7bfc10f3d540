/-
  MesonDisplay.Ipc.Connection — the server loop, seen from one connection.

  `server_routine_start` calls `read_request` on a connection that select()
  reports as ready, hands the object to `msg_handle` and sends the reply, if
  there is one.  A connection takes part in the loop only through the reads on
  it, so its part of any run is a function of what those reads return.

  Main results:
    * `serveConnection_handled` — the objects handed to `msg_handle` are the
      non-empty objects among the values collected from the stream.
    * `requests_handled_iff` — exactly which ways of splitting the stream
      into reads deliver every request.
    * `no_abort_iff` — exactly which texts make json-c abort the thread.
-/
import MesonDisplay.Ipc.ReadBuffer
import MesonDisplay.Json.Text
import Mathlib.Data.List.TakeWhile

namespace MesonDisplay.Ipc

open MesonDisplay.Framing MesonDisplay.Json

/-! ## §1. One turn of the loop, and all of them. -/

/-- What the server does with an object it read. -/
inductive ConnEvent where
  /-- `ctx->msg_handle(data_in, &data_out)`. -/
  | handle (dataIn : Json)
  /-- `send_request(i, data_out)`. -/
  | reply (dataOut : Json)
  /-- The reply is dropped, its connection is closed already. -/
  | noReceiver (dataOut : Json)
  deriving DecidableEq

/-- One turn of the loop for a ready connection. -/
inductive Turn (σ : Type) where
  /-- Still inside `read_request`, waiting for more bytes. -/
  | blocked (buffer : List Char)
  | undefined
  /-- `json_object_object_length` failed its assertion. -/
  | aborted (dataIn : Json)
  | done (s : σ) (events : List ConnEvent) (fdClosed : Bool)
      (rest : List (Read Char))

/-- The server loop after the reads on a connection are used up. -/
inductive ConnState where
  /-- Back in select(), nothing is buffered. -/
  | select
  | blocked (buffer : List Char)
  | closed
  | aborted (dataIn : Json)
  | undefined
  deriving DecidableEq

section Server

variable {σ : Type} (jc : JsonC) (rcvbuf : Nat)
  (msgHandle : σ → Json → σ × Json)

/-- The replies of one `msg_handle` call: `*data_out` may be left NULL. -/
def replyEvents (fdClosed : Bool) (dataOut : Json) : List ConnEvent :=
  if dataOut.isNull then []
  else if fdClosed then [.noReceiver dataOut] else [.reply dataOut]

/-- What follows a `read_request` in `server_routine_start`: an object with
members is handled and answered.  `none` where json-c fails its assertion that
the value is an object. -/
def handleRequest (s : σ) (fdClosed : Bool) (dataIn : Json) :
    Option (σ × List ConnEvent) :=
  match dataIn.objectLength with
  | none => none
  | some 0 => some (s, [])
  | some (_ + 1) =>
      let (s', dataOut) := msgHandle s dataIn
      some (s', .handle dataIn :: replyEvents fdClosed dataOut)

/-- The else branch of the scan in `server_routine_start`: read a request,
note whether the connection is gone, handle what was read. -/
def serveRequest (s : σ) (reads : List (Read Char)) : Turn σ :=
  match readRequest jc rcvbuf (fun _ => true) (some .null) reads with
  | .blocked b => .blocked b
  | .undefined => .undefined
  | .returned ret dataIn rest =>
      let fdClosed := decide (ret ≤ 0)
      match handleRequest msgHandle s fdClosed dataIn with
      | none => .aborted dataIn
      | some (s', events) => .done s' events fdClosed rest

/-- Turn after turn; every turn uses up at least one read, so `fuel` reads
are enough for as many turns. -/
def serveLoop : (fuel : Nat) → σ → List (Read Char) →
    List ConnEvent × ConnState
  | 0, _, _ => ([], .select)
  | _ + 1, _, [] => ([], .select)
  | fuel + 1, s, r :: reads =>
      match serveRequest jc rcvbuf msgHandle s (r :: reads) with
      | .blocked b => ([], .blocked b)
      | .undefined => ([], .undefined)
      | .aborted d => ([], .aborted d)
      | .done s' events fdClosed rest =>
          if fdClosed then (events, .closed)
          else
            let (events', state) := serveLoop fuel s' rest
            (events ++ events', state)

/-- The part of a connection in a run of `server_routine_start`. -/
def serveConnection (s : σ) (reads : List (Read Char)) :
    List ConnEvent × ConnState :=
  serveLoop jc rcvbuf msgHandle reads.length s reads

end Server

/-- The objects handed to `msg_handle`, in order. -/
def handled (events : List ConnEvent) : List Json :=
  events.filterMap fun
    | .handle d => some d
    | _ => none

/-! ## §2. The loop is a reader of the stream. -/

@[simp] theorem handled_replyEvents (fdClosed : Bool) (d : Json) :
    handled (replyEvents fdClosed d) = [] := by
  unfold replyEvents
  split
  · rfl
  · split <;> rfl

@[simp] theorem handled_append (es es' : List ConnEvent) :
    handled (es ++ es') = handled es ++ handled es' := by
  simp [handled]

@[simp] theorem handled_handle (d : Json) (es : List ConnEvent) :
    handled (.handle d :: es) = d :: handled es := rfl

/-- An object with at least one member. -/
def isNonEmpty (j : Json) : Bool :=
  match j.objectLength with
  | some (_ + 1) => true
  | _ => false

/-- The state of the server after it collected `values` and kept `left` in
its buffer: the first value that is no object ended the thread. -/
def stateAfter (values : List Json) (left : Option (List Char)) : ConnState :=
  match values.find? (fun v => !v.isObject) with
  | some v => .aborted v
  | none =>
      match left with
      | some [] => .select
      | some got => .blocked got
      | none => .closed

theorem stateAfter_cons_object {v : Json} (hv : v.isObject = true)
    (vs : List Json) (left : Option (List Char)) :
    stateAfter (v :: vs) left = stateAfter vs left := by
  simp [stateAfter, List.find?, hv]

section Refinement

variable {σ : Type} {jc : JsonC} {rcvbuf : Nat}
  {msgHandle : σ → Json → σ × Json}

/-- A reader that waits has received everything it was given. -/
theorem assemble_waiting {parse : List Char → Option Json} {cap : Nat}
    {room : Nat → Nat} :
    ∀ {reads : List (Read Char)} {got g : List Char},
      Fits parse cap room got reads →
      assemble parse cap got reads = .waiting g → reads ≠ [] → g ≠ [] := by
  intro reads
  induction reads with
  | nil => exact fun _ _ h => absurd rfl h
  | cons r reads ih =>
      intro got g hfit h _
      cases r with
      | eof => simp [assemble] at h
      | error => simp [assemble] at h
      | bytes c =>
          obtain ⟨⟨hcne, -⟩, hnext⟩ :
            (c ≠ [] ∧ c.length ≤ room got.length) ∧ _ := hfit
          cases hp : parse (got ++ c) with
          -- a value ends the collection
          | some v =>
              rw [assemble_complete hp] at h
              exact absurd h (by simp)
          | none =>
              rw [assemble_incomplete hp] at h
              rw [hp] at hnext
              split at h
              · rename_i hlt
                cases reads with
                | nil =>
                    obtain rfl : got ++ c = g := by simpa [assemble] using h
                    simp [hcne]
                | cons r' rs => exact ih (hnext hlt) h (by simp)
              · exact absurd h (by simp)

/-- **What the loop does with a stream.**  Whatever the handler does, the loop
hands on the non-empty objects among the collected values, up to the first
value that is no object, and ends where the reader of the stream ends. -/
theorem serveLoop_spec (h0 : 0 < rcvbuf) (hB : rcvbuf ≤ maxRequestBufferSize) :
    ∀ (fuel : Nat) (s : σ) (reads : List (Read Char)),
      reads.length ≤ fuel → Readable jc rcvbuf reads →
      handled (serveLoop jc rcvbuf msgHandle fuel s reads).1
        = ((delivered jc.parse (capacity rcvbuf) [] reads).takeWhile
            Json.isObject).filter isNonEmpty ∧
      (serveLoop jc rcvbuf msgHandle fuel s reads).2
        = stateAfter (delivered jc.parse (capacity rcvbuf) [] reads)
            (pending jc.parse (capacity rcvbuf) [] reads) := by
  intro fuel
  induction fuel with
  | zero =>
      intro s reads hlen _
      obtain rfl : reads = [] := List.length_eq_zero_iff.mp (by omega)
      exact ⟨rfl, rfl⟩
  | succ fuel ih =>
      intro s reads hlen hfit
      cases reads with
      | nil => exact ⟨rfl, rfl⟩
      | cons r rs =>
          have href := readRequest_refines h0 hB (some .null) (r :: rs) hfit
          rw [delivered_eq, pending_eq]
          simp only [serveLoop, serveRequest, handleRequest]
          generalize hassm : assemble jc.parse (capacity rcvbuf) [] (r :: rs) = a
            at href
          cases a with
          -- the read blocks with bytes in the buffer
          | waiting g =>
              have hg : g ≠ [] := assemble_waiting hfit hassm (by simp)
              obtain ⟨b, g', rfl⟩ := List.exists_cons_of_ne_nil hg
              rw [show readRequest jc rcvbuf (fun _ => true) (some .null) (r :: rs)
                    = .blocked (b :: g') from href]
              exact ⟨rfl, rfl⟩
          -- the client is gone: an empty object, which is not handed on
          | eof rest =>
              rw [show readRequest jc rcvbuf (fun _ => true) (some .null) (r :: rs)
                    = .returned 0 Json.newObject rest from href]
              exact ⟨rfl, rfl⟩
          | error rest =>
              rw [show readRequest jc rcvbuf (fun _ => true) (some .null) (r :: rs)
                    = .returned (-1) Json.newObject rest from href]
              exact ⟨rfl, rfl⟩
          | full rest =>
              rw [show readRequest jc rcvbuf (fun _ => true) (some .null) (r :: rs)
                    = .returned (-1) Json.newObject rest from href]
              exact ⟨rfl, rfl⟩
          -- a value: the length check decides what happens to it
          | value v rest =>
              obtain ⟨n, hn, hret⟩ := href
              obtain ⟨hlt, hrest⟩ := assemble_value hfit hassm
              rw [hret]
              have hopen : decide (n ≤ 0) = false := by simpa using hn
              simp only [hopen]
              cases hlenv : v.objectLength with
              | none =>
                  have hv := Json.objectLength_eq_none.mp hlenv
                  simp [handled, stateAfter, hv]
              | some m =>
                  have hv : v.isObject = true := by
                    by_contra hne
                    have := Json.objectLength_eq_none.mpr (by simpa using hne)
                    rw [hlenv] at this
                    exact absurd this (by simp)
                  obtain ⟨ihev, ihst⟩ := ih (match m with
                    | 0 => s
                    | _ + 1 => (msgHandle s v).1) rest (by simp at hlen hlt; omega) hrest
                  rw [stateAfter_cons_object hv]
                  cases m with
                  | zero =>
                      -- an empty object is dropped
                      have hempty : isNonEmpty v = false := by
                        simp [isNonEmpty, hlenv]
                      simp only [List.takeWhile_cons, hv, if_true,
                        List.filter_cons, hempty]
                      exact ⟨ihev, ihst⟩
                  | succ m =>
                      -- any other object is handed on, and the loop goes on behind it
                      have hfull : isNonEmpty v = true := by
                        simp [isNonEmpty, hlenv]
                      simp only [List.takeWhile_cons, hv, if_true,
                        List.filter_cons, hfull]
                      refine ⟨?_, ihst⟩
                      simp only [Bool.false_eq_true, if_false, handled_append,
                        handled_handle, handled_replyEvents, ihev]
                      rfl

/-- `serveLoop_spec` for the whole run of a connection. -/
theorem serveConnection_handled (h0 : 0 < rcvbuf)
    (hB : rcvbuf ≤ maxRequestBufferSize) (s : σ) (reads : List (Read Char))
    (hfit : Readable jc rcvbuf reads) :
    handled (serveConnection jc rcvbuf msgHandle s reads).1
      = ((delivered jc.parse (capacity rcvbuf) [] reads).takeWhile
          Json.isObject).filter isNonEmpty :=
  (serveLoop_spec h0 hB reads.length s reads (Nat.le_refl _) hfit).1

theorem serveConnection_state (h0 : 0 < rcvbuf)
    (hB : rcvbuf ≤ maxRequestBufferSize) (s : σ) (reads : List (Read Char))
    (hfit : Readable jc rcvbuf reads) :
    (serveConnection jc rcvbuf msgHandle s reads).2
      = stateAfter (delivered jc.parse (capacity rcvbuf) [] reads)
          (pending jc.parse (capacity rcvbuf) [] reads) :=
  (serveLoop_spec h0 hB reads.length s reads (Nat.le_refl _) hfit).2

/-- Without a usable block size the first read request is undefined: a
division by zero, or no iteration at all. -/
theorem serveConnection_of_capacity_zero (h : capacity rcvbuf = 0) (s : σ)
    (r : Read Char) (rs : List (Read Char)) :
    serveConnection jc rcvbuf msgHandle s (r :: rs) = ([], .undefined) := by
  have hreq : readRequest jc rcvbuf (fun _ => true) (some .null) (r :: rs)
      = .undefined := by
    unfold readRequest
    split
    · rfl
    · rename_i hne
      have hdiv : maxRequestBufferSize / rcvbuf = 0 := by
        rcases Nat.mul_eq_zero.mp h with h | h
        · exact h
        · exact absurd h hne
      rw [hdiv]
      rfl
  simp [serveConnection, serveLoop, serveRequest, hreq]

end Refinement

/-! ## §3. Requests on a stream. -/

/-- `chunks` is a way in which the kernel may hand the bytes of `stream` to the
server's reads. -/
structure Segmentation (jc : JsonC) (rcvbuf : Nat) (stream : List Char)
    (chunks : List (List Char)) : Prop where
  flatten : chunks.flatten = stream
  readable : Readable jc rcvbuf (chunks.map Read.bytes)

/-- The bytes `client_send_request` writes: `send_request` passes the text of
the object to `write()`. -/
def clientSendRequest (jc : JsonC) (data : Json) : List Char :=
  jc.toJsonString data

theorem requestText_selfDelimiting {jc : JsonC} (h : jc.ReadsObjects) :
    SelfDelimiting (clientSendRequest jc) jc.parse Json.IsRequest where
  complete := fun j hj rest => JsonC.parse_eq_some.mpr
    ⟨h.complete j hj rest, Json.ne_null_of_isObject hj.2⟩
  incomplete := fun j hj p hp hne =>
    JsonC.parse_eq_none.mpr (h.incomplete j hj p hp hne)

theorem requestText_noLaterCopy {jc : JsonC} (h : jc.NoNestedCopy) :
    NoLaterCopy (clientSendRequest jc) jc.parse Json.IsRequest :=
  fun j hj a w b ha hp hw => h j hj a w b ha hp (JsonC.parse_eq_some.mp hw).1

theorem isNonEmpty_iff {j : Json} (h : j.isObject = true) :
    isNonEmpty j = true ↔ j ≠ Json.newObject := by
  obtain ⟨fs, rfl⟩ := Json.isObject_iff.mp h
  cases fs <;> simp [isNonEmpty, Json.objectLength, Json.newObject]

section Requests

variable {σ : Type} {jc : JsonC}

/-- With a usable block size, all requests are handed on exactly when they are
all among the collected values, and none of them is empty. -/
theorem handled_eq_iff_sublist (hr : jc.ReadsObjects) (hn : jc.NoNestedCopy)
    {rcvbuf : Nat} (hcap : 0 < capacity rcvbuf) (msgHandle : σ → Json → σ × Json)
    (s : σ) (reqs : List Json) (hreq : ∀ r ∈ reqs, r.IsRequest)
    (chunks : List (List Char))
    (hseg : Segmentation jc rcvbuf (reqs.flatMap (clientSendRequest jc)) chunks) :
    handled (serveConnection jc rcvbuf msgHandle s (chunks.map Read.bytes)).1 = reqs ↔
      (∀ r ∈ reqs, r ≠ Json.newObject) ∧
      reqs.Sublist
        (delivered jc.parse (capacity rcvbuf) [] (chunks.map Read.bytes)) := by
  obtain ⟨h0, hB⟩ := capacity_pos_iff.mp hcap
  rw [serveConnection_handled h0 hB s _ hseg.readable]
  constructor
  · intro h
    -- what is handed on is a part of what is delivered
    refine ⟨fun r hrm => ?_, ?_⟩
    · rw [← h] at hrm
      exact (isNonEmpty_iff (hreq r (h ▸ hrm)).2).mp (List.mem_filter.mp hrm).2
    · rw [← h]
      exact List.filter_sublist.trans (List.takeWhile_sublist _)
  · intro ⟨hne, hsub⟩
    -- a reader that delivers all of them delivers nothing else
    have hall := (sublist_delivered_iff (requestText_selfDelimiting hr)
      (requestText_noLaterCopy hn) jc.parse_nil (fun n h => add_room_le_capacity h0 h) hcap
      chunks reqs hreq hseg.readable hseg.flatten).2 hsub
    rw [hall]
    have hobj : reqs.takeWhile Json.isObject = reqs :=
      List.takeWhile_eq_self_iff.mpr fun r hrm => (hreq r hrm).2
    rw [hobj]
    exact List.filter_eq_self.mpr fun r hrm =>
      (isNonEmpty_iff (hreq r hrm).2).mpr (hne r hrm)

/-- **Which requests come through.**  The objects handed to `msg_handle` for a
connection are the requests the client sent on it, in order, if and only if no
request is the empty object, every request fits the buffer, and no read returns
bytes of two requests: every request ends where a read ends. -/
theorem requests_handled_iff (hr : jc.ReadsObjects) (hn : jc.NoNestedCopy)
    (rcvbuf : Nat) (msgHandle : σ → Json → σ × Json) (s : σ)
    (reqs : List Json) (hreq : ∀ r ∈ reqs, r.IsRequest)
    (chunks : List (List Char))
    (hseg : Segmentation jc rcvbuf (reqs.flatMap (clientSendRequest jc)) chunks) :
    handled (serveConnection jc rcvbuf msgHandle s (chunks.map Read.bytes)).1 = reqs ↔
      (∀ r ∈ reqs, r ≠ Json.newObject ∧
        (clientSendRequest jc r).length ≤ capacity rcvbuf) ∧
      Aligned (clientSendRequest jc) reqs chunks := by
  have hcode := requestText_selfDelimiting hr
  rcases Nat.eq_zero_or_pos (capacity rcvbuf) with hcap | hcap
  -- no block fits into the buffer: nothing can be read
  · cases reqs with
    | nil =>
        have hc : chunks = [] := by
          cases chunks with
          | nil => rfl
          | cons c cs =>
              obtain ⟨⟨hcne, -⟩, -⟩ : (c ≠ [] ∧ _) ∧ _ := hseg.readable
              have := hseg.flatten
              simp [hcne] at this
        subst hc
        constructor
        · intro _
          exact ⟨fun r h => absurd h (by simp), fun k => ⟨0, by simp⟩⟩
        · intro _
          rfl
    | cons r rs =>
        have hlen : 0 < (clientSendRequest jc r).length :=
          List.length_pos_iff.mpr
            (hcode.print_ne_nil jc.parse_nil (hreq r List.mem_cons_self))
        constructor
        · intro h
          cases chunks with
          | nil => exact absurd h (by simp [serveConnection, serveLoop, handled])
          | cons c cs =>
              rw [List.map_cons, serveConnection_of_capacity_zero hcap] at h
              exact absurd h (by simp [handled])
        · intro ⟨hle, _⟩
          have := (hle r List.mem_cons_self).2
          omega
  · obtain ⟨h0, hB⟩ := capacity_pos_iff.mp hcap
    -- exact recovery, for the text of requests
    rw [handled_eq_iff_sublist hr hn hcap msgHandle s reqs hreq chunks hseg,
        (sublist_delivered_iff hcode (requestText_noLaterCopy hn) jc.parse_nil
          (fun n h => add_room_le_capacity h0 h) hcap chunks reqs hreq
          hseg.readable hseg.flatten).1]
    constructor
    · intro ⟨hne, hle, hal⟩
      exact ⟨fun r hrm => ⟨hne r hrm, hle r hrm⟩, hal⟩
    · intro ⟨hle, hal⟩
      exact ⟨fun r hrm => (hle r hrm).1, fun r hrm => (hle r hrm).2, hal⟩

end Requests

/-! ### Two requests, read together and one by one -/

/-- Two queries as the client library sends them. -/
def getDisplayModeRequest : Json := .object [("cmd", .string "get display mode")]

def getUiRectRequest : Json := .object [("cmd", .string "get ui rect")]

/-- A handler that has nothing to say. -/
def silentHandle (s : Unit) (_ : Json) : Unit × Json := (s, .null)

/-- Read one by one, both are handled. -/
theorem requests_handled_one_by_one :
    handled (serveConnection jsonText 212992 silentHandle ()
        ([clientSendRequest jsonText getDisplayModeRequest,
          clientSendRequest jsonText getUiRectRequest].map Read.bytes)).1
      = [getDisplayModeRequest, getUiRectRequest] := by
  have hfit : Readable jsonText 212992
      ([clientSendRequest jsonText getDisplayModeRequest,
        clientSendRequest jsonText getUiRectRequest].map Read.bytes) := by
    refine ⟨by decide +kernel, ?_⟩
    rw [show jsonText.parse ([] ++ clientSendRequest jsonText getDisplayModeRequest)
        = some getDisplayModeRequest by decide +kernel]
    refine ⟨by decide +kernel, ?_⟩
    rw [show jsonText.parse ([] ++ clientSendRequest jsonText getUiRectRequest)
        = some getUiRectRequest by decide +kernel]
    trivial
  refine (requests_handled_iff jsonText_readsObjects jsonText_noNestedCopy 212992
    silentHandle () [getDisplayModeRequest, getUiRectRequest]
    (by decide +kernel) _ ⟨by decide +kernel, hfit⟩).mpr ⟨by decide +kernel, ?_⟩
  intro k
  match k with
  | 0 => exact ⟨0, rfl⟩
  | 1 => exact ⟨1, rfl⟩
  | k + 2 => exact ⟨2, by simp⟩

/-- Read together, the second one is lost. -/
theorem coalesced_request_lost :
    (∀ r ∈ [getDisplayModeRequest, getUiRectRequest], r.IsRequest) ∧
    Segmentation jsonText 212992
      ([getDisplayModeRequest, getUiRectRequest].flatMap (clientSendRequest jsonText))
      [clientSendRequest jsonText getDisplayModeRequest
        ++ clientSendRequest jsonText getUiRectRequest] ∧
    handled (serveConnection jsonText 212992 silentHandle ()
      ([clientSendRequest jsonText getDisplayModeRequest
        ++ clientSendRequest jsonText getUiRectRequest].map Read.bytes)).1
      = [getDisplayModeRequest] := by
  have hparse : jsonText.parse ([] ++ (clientSendRequest jsonText getDisplayModeRequest
      ++ clientSendRequest jsonText getUiRectRequest)) = some getDisplayModeRequest := by
    decide +kernel
  refine ⟨by decide +kernel, ⟨by decide +kernel, by decide +kernel, ?_⟩,
    by decide +kernel⟩
  rw [hparse]
  trivial

/-! ## §4. Texts that are no objects. -/

/-- The bytes received since the last complete value, before a read: the text
a connection is in the middle of.  `none` once the connection is closed. -/
def textBefore (jc : JsonC) (rcvbuf : Nat) (earlier : List (Read Char)) :
    Option (List Char) :=
  pending jc.parse (capacity rcvbuf) [] earlier

theorem stateAfter_ne_aborted_iff (vs : List Json) (left : Option (List Char)) :
    (∀ d, stateAfter vs left ≠ .aborted d) ↔ ∀ v ∈ vs, v.isObject = true := by
  unfold stateAfter
  cases hf : vs.find? (fun v => !v.isObject) with
  | some v =>
      have hv := List.find?_some hf
      have hmem := List.mem_of_find?_eq_some hf
      constructor
      · intro h
        exact absurd rfl (h v)
      · intro h
        rw [h v hmem] at hv
        exact absurd hv (by simp)
  | none =>
      have hall : ∀ v ∈ vs, v.isObject = true := by simpa using hf
      refine ⟨fun _ => hall, fun _ d => ?_⟩
      match left with
      | none => simp
      | some [] => simp
      | some (_ :: _) => simp

/-- **Which streams abort the thread.**  Whatever a client sends and however it
arrives, every value passed to `json_object_object_length` is an object if and
only if every text that a read completes to a value opens with a brace. -/
theorem no_abort_iff {σ : Type} {jc : JsonC} (hb : jc.BraceOpensObject)
    (rcvbuf : Nat) (msgHandle : σ → Json → σ × Json) (s : σ)
    (reads : List (Read Char)) (hfit : Readable jc rcvbuf reads) :
    (∀ d, (serveConnection jc rcvbuf msgHandle s reads).2 ≠ .aborted d) ↔
      (0 < capacity rcvbuf → ∀ j c text, reads[j]? = some (.bytes c) →
        textBefore jc rcvbuf (reads.take j) = some text →
        jc.tokenerParse (text ++ c) ≠ .null → JsonC.opensObject (text ++ c) = true) := by
  rcases Nat.eq_zero_or_pos (capacity rcvbuf) with hcap | hcap
  · constructor
    · intro _ h
      omega
    · intro _ d
      cases reads with
      | nil => simp [serveConnection, serveLoop]
      | cons r rs =>
          rw [serveConnection_of_capacity_zero hcap]
          simp
  · obtain ⟨h0, hB⟩ := capacity_pos_iff.mp hcap
    -- a value that aborts is one of those the reader delivers
    rw [serveConnection_state h0 hB s reads hfit, stateAfter_ne_aborted_iff]
    constructor
    · intro h _ j c text hj htext hne
      refine (hb _ hne).mp (h _ ?_)
      exact (mem_delivered_iff reads [] _).mpr
        ⟨j, c, text, hj, htext, JsonC.parse_eq_some.mpr ⟨rfl, hne⟩⟩
    · intro h v hv
      obtain ⟨j, c, text, hj, htext, hp⟩ := (mem_delivered_iff reads [] v).mp hv
      obtain ⟨rfl, hne⟩ := JsonC.parse_eq_some.mp hp
      exact (hb _ hne).mpr (h hcap j c text hj htext hne)

/-- A request aborts nothing. -/
theorem request_does_not_abort :
    ¬ ∃ d, (serveConnection jsonText 212992 silentHandle ()
      [.bytes (clientSendRequest jsonText getUiRectRequest)]).2 = .aborted d := by
  have hparse : jsonText.parse ([] ++ clientSendRequest jsonText getUiRectRequest)
      = some getUiRectRequest := by decide +kernel
  have hfit : Readable jsonText 212992
      [.bytes (clientSendRequest jsonText getUiRectRequest)] := by
    refine ⟨by decide +kernel, ?_⟩
    rw [hparse]
    trivial
  refine not_exists.mpr
    ((no_abort_iff jsonText_braceOpensObject 212992 silentHandle () _ hfit).mpr ?_)
  intro _ j c text hj htext _
  match j with
  | 0 =>
      obtain rfl : clientSendRequest jsonText getUiRectRequest = c := by simpa using hj
      obtain rfl : [] = text := by simpa [textBefore, pending] using htext
      decide +kernel
  | j + 1 => simp at hj

/-- A number does. -/
theorem number_aborts :
    Readable jsonText 212992 [.bytes ['5']] ∧
    (serveConnection jsonText 212992 silentHandle () [.bytes ['5']]).2
      = .aborted (.int 5) := by
  refine ⟨⟨by decide +kernel, ?_⟩, by decide +kernel⟩
  rw [show jsonText.parse ([] ++ ['5']) = some (.int 5) by decide +kernel]
  trivial

end MesonDisplay.Ipc
