import Kurtar.WorkQueue

/-!
# Push batches

A batch of push messages is cut into chunks, ten workers send the chunks
concurrently, and each answer is classified into results that are stored at
the chunk's own place. Whatever ends first and however it ends, the results
line up with the messages.
-/

namespace Kurtar.PushBatches

open GuardedRuns WorkQueue

structure PushMessage (Data : Type) where
  toToken : String
  title : String
  body : String
  data : Option Data

inductive PushSendOutcome where
  | ok
  | token_invalid
  | error
deriving DecidableEq

structure PushSendResult where
  toToken : String
  outcome : PushSendOutcome
  error : Option String
deriving DecidableEq

def EXPO_CHUNK_SIZE : ℕ := 100

def EXPO_CHUNK_CONCURRENCY : ℕ := 10

/-- The loop that cuts chunks from a position on. -/
def chunkFrom {T : Type} (messages : List T) (size : ℕ) : ℕ → ℕ → List (List T)
  | 0, _ => []
  | fuel+1, i =>
    if i < messages.length then
      (messages.drop i).take size :: chunkFrom messages size fuel (i+size)
    else []

def chunkMessages {T : Type} (messages : List T) (size : ℕ) : List (List T) :=
  chunkFrom messages size messages.length 0

inductive TicketStatus where
  | ok
  | error
deriving DecidableEq

structure TicketDetails where
  error : Option String

structure ExpoPushTicket where
  status : TicketStatus
  message : Option String
  details : Option TicketDetails

def classifyExpoTicket (toToken : String) (ticket : ExpoPushTicket) : PushSendResult :=
  if ticket.status = .ok then ⟨toToken, .ok, none⟩
  else if ticket.details.bind (·.error) = some "DeviceNotRegistered" then
    ⟨toToken, .token_invalid, ticket.message⟩
  else ⟨toToken, .error, ticket.message.or (ticket.details.bind (·.error))⟩

/-- How a request ends: the fetch fails or times out, the status is not a
success, the body is no JSON, or it holds tickets or none. -/
inductive Answer where
  | rejected (message : String)
  | notOk (status : ℕ)
  | invalidJson
  | json (data : Option (List ExpoPushTicket))

instance : Inhabited Answer := ⟨.invalidJson⟩

section Sending

variable {Data : Type}

/-- One message of a request's body. -/
structure ExpoBody (Data : Type) where
  toToken : String
  title : String
  body : String
  data : Option Data

def toExpoRequestBody (messages : List (PushMessage Data)) : List (ExpoBody Data) :=
  messages.map fun m => ⟨m.toToken, m.title, m.body, m.data⟩

def asError (messages : List (PushMessage Data)) (error : String) : List PushSendResult :=
  messages.map fun m => ⟨m.toToken, .error, some error⟩

/-- The results of a chunk whose request ended so. -/
def sendChunk (messages : List (PushMessage Data)) : Answer → List PushSendResult
  | .rejected message => asError messages message
  | .notOk status => asError messages s!"HTTP {status}"
  | .invalidJson => asError messages "Invalid JSON response"
  | .json data =>
    let tickets := data.getD []
    if tickets.length ≠ messages.length then asError messages "Ticket/message count mismatch"
    else List.zipWith (fun m ticket => classifyExpoTicket m.toToken ticket) messages tickets

/-- The call under way: chunks, the next chunk's index and the results by chunk. -/
abbrev SendBatch (Data : Type) := Queue (List (PushMessage Data)) Answer (List PushSendResult)

/-- The call when its workers have sent their first requests. -/
def sendBatch (messages : List (PushMessage Data)) : SendBatch Data → Prop :=
  let chunks := chunkMessages messages EXPO_CHUNK_SIZE
  let workerCount := min EXPO_CHUNK_CONCURRENCY chunks.length
  Started workerCount chunks

/-- The end of one request. -/
def sendStep : SendBatch Data → ℕ × Answer → Option (SendBatch Data) := stepQueue sendChunk

/-- The requests sent so far. -/
def requests (q : SendBatch Data) : List (List (ExpoBody Data)) := q.taken.map toExpoRequestBody

/-- What the call returns, once every worker has ended. -/
def batchResult (q : SendBatch Data) : Option (List PushSendResult) :=
  if q.busy = [] then some (outcomes q).flatten else none

end Sending

section Chunks

variable {T R : Type} {messages : List T} {size fuel i j : ℕ}

/-- The chunks from a position on are the list from there on. -/
theorem flatten_chunkFrom (hsize : 0 < size) (hfuel : messages.length ≤ i+fuel) :
    (chunkFrom messages size fuel i).flatten = messages.drop i := by
  induction fuel generalizing i with
  | zero => rw [chunkFrom, List.flatten_nil, List.drop_eq_nil_of_le (by omega)]
  | succ fuel ih =>
    rw [chunkFrom]
    split_ifs with hi
    · rw [List.flatten_cons, ih (by omega), ← List.drop_drop, List.take_append_drop]
    · rw [List.flatten_nil, List.drop_eq_nil_of_le (by omega)]

/-- No chunk is longer than the size. -/
theorem length_le_of_mem_chunkFrom {chunk : List T} (h : chunk ∈ chunkFrom messages size fuel i) :
    chunk.length ≤ size := by
  induction fuel generalizing i with
  | zero => cases h
  | succ fuel ih =>
    rw [chunkFrom] at h
    split_ifs at h with hi
    · cases h with
      | head => exact List.length_take_le _ _
      | tail _ h => exact ih h
    · cases h

/-- There are chunks up to the end of the list. -/
theorem lt_length_chunkFrom {k : ℕ} (hfuel : messages.length ≤ i+fuel) (hsize : 0 < size)
    (hk : i+k*size < messages.length) : k < (chunkFrom messages size fuel i).length := by
  induction fuel generalizing i k with
  | zero => omega
  | succ fuel ih =>
    rw [chunkFrom, if_pos (by omega), List.length_cons]
    cases k with
    | zero => omega
    | succ k =>
      rw [Nat.succ_mul] at hk
      have hrest := ih (i := i+size) (k := k) (by omega) (by omega)
      omega

/-- Results computed chunk by chunk, one for each member, are found at the
member's chunk and at its place in the chunk. -/
theorem getElem?_flatten_mapIdx_chunkFrom (hsize : 0 < size) (hfuel : messages.length ≤ i+fuel)
    (g : ℕ → List T → List R) (hg : ∀ k chunk, (g k chunk).length = chunk.length) :
    ((chunkFrom messages size fuel i).mapIdx g).flatten[j]? =
      if i+j < messages.length then
        (g (j/size) ((messages.drop (i+j/size*size)).take size))[j%size]?
      else none := by
  induction fuel generalizing i j g with
  | zero =>
    rw [chunkFrom, if_neg (by omega)]
    rfl
  | succ fuel ih =>
    rw [chunkFrom]
    by_cases hi : i < messages.length
    · have hlength : (g 0 ((messages.drop i).take size)).length = min size (messages.length-i) := by
        rw [hg, List.length_take, List.length_drop]
      rw [if_pos hi, List.mapIdx_cons, List.flatten_cons]
      by_cases hfirst : j < min size (messages.length-i)
      · have hin : i+j < messages.length := by omega
        have hsmall : j < size := by omega
        rw [List.getElem?_append_left (by omega), if_pos hin, Nat.div_eq_of_lt hsmall,
          Nat.mod_eq_of_lt hsmall, Nat.zero_mul, Nat.add_zero]
      · rw [List.getElem?_append_right (by omega), hlength,
          ih (by omega) (fun k => g (k+1)) fun k => hg (k+1)]
        by_cases hlast : messages.length-i ≤ size
        · rw [if_neg (by omega), if_neg (by omega)]
        · have hmin : min size (messages.length-i) = size := by omega
          have hdiv := Nat.div_eq_sub_div hsize (by omega : size ≤ j)
          have hmod := Nat.mod_eq_sub_mod (by omega : j ≥ size)
          have hplace : i+size+(j-size)/size*size = i+j/size*size := by
            rw [hdiv, Nat.succ_mul]
            omega
          rw [hmin, hplace, ← hmod, ← hdiv]
          by_cases hin : i+j < messages.length
          · rw [if_pos (by omega), if_pos hin]
          · rw [if_neg (by omega), if_neg hin]
    · rw [if_neg hi, if_neg (by omega)]
      rfl

end Chunks

section Results

variable {Data : Type} {messages : List (PushMessage Data)} {q : SendBatch Data}

/-- The chunk that a position is in. -/
def chunkOf (messages : List (PushMessage Data)) (i : ℕ) : List (PushMessage Data) :=
  (messages.drop (i/EXPO_CHUNK_SIZE*EXPO_CHUNK_SIZE)).take EXPO_CHUNK_SIZE

/-- A request, however it ends, gives one result for each of its messages. -/
theorem length_sendChunk (chunk : List (PushMessage Data)) (answer : Answer) :
    (sendChunk chunk answer).length = chunk.length := by
  cases answer with
  | rejected message => exact List.length_map _
  | notOk status => exact List.length_map _
  | invalidJson => exact List.length_map _
  | json data =>
    rw [sendChunk]
    split_ifs with hcount
    · exact List.length_map _
    · rw [List.length_zipWith]
      omega

/-- What a result owes to its own message and ticket. -/
structure ResultFor (chunk : List (PushMessage Data)) (answer : Answer) (k : ℕ)
    (m : PushMessage Data) (r : PushSendResult) : Prop where
  recipient : r.toToken = m.toToken
  invalid : r.outcome = .token_invalid → ∃ tickets ticket,
    answer = .json (some tickets) ∧ tickets.length = chunk.length ∧ tickets[k]? = some ticket ∧
      ticket.status = .error ∧ ticket.details.bind (·.error) = some "DeviceNotRegistered"

theorem resultFor_asError {chunk : List (PushMessage Data)} {answer : Answer} {error : String}
    {k : ℕ} {m : PushMessage Data} (hm : chunk[k]? = some m) :
    ∃ r, (asError chunk error)[k]? = some r ∧ ResultFor chunk answer k m r := by
  refine ⟨⟨m.toToken, .error, some error⟩, ?_, rfl, nofun⟩
  rw [asError, List.getElem?_map, hm, Option.map_some]

theorem classifyExpoTicket_invalid {toToken : String} {ticket : ExpoPushTicket}
    (h : (classifyExpoTicket toToken ticket).outcome = .token_invalid) :
    ticket.status = .error ∧ ticket.details.bind (·.error) = some "DeviceNotRegistered" := by
  unfold classifyExpoTicket at h
  split_ifs at h with hok hdevice
  cases hstatus : ticket.status with
  | ok => exact absurd hstatus hok
  | error => exact ⟨rfl, hdevice⟩

theorem classifyExpoTicket_toToken (toToken : String) (ticket : ExpoPushTicket) :
    (classifyExpoTicket toToken ticket).toToken = toToken := by
  unfold classifyExpoTicket
  split_ifs <;> rfl

/-- The result at a message's place in its chunk is that message's own. -/
theorem resultFor_sendChunk {chunk : List (PushMessage Data)} (answer : Answer) {k : ℕ}
    {m : PushMessage Data} (hm : chunk[k]? = some m) :
    ∃ r, (sendChunk chunk answer)[k]? = some r ∧ ResultFor chunk answer k m r := by
  cases answer with
  | rejected message => exact resultFor_asError hm
  | notOk status => exact resultFor_asError hm
  | invalidJson => exact resultFor_asError hm
  | json data =>
    rw [sendChunk]
    by_cases hcount : (data.getD []).length ≠ chunk.length
    · rw [if_pos hcount]
      exact resultFor_asError hm
    · rw [if_neg hcount]
      have hk := (List.getElem?_eq_some_iff.mp hm).1
      have hlength : (data.getD []).length = chunk.length := not_not.mp hcount
      have hticket := List.getElem?_eq_getElem (by omega : k < (data.getD []).length)
      refine ⟨classifyExpoTicket m.toToken (data.getD [])[k], ?_,
        classifyExpoTicket_toToken _ _, fun hinvalid => ?_⟩
      · rw [List.getElem?_zipWith, hm, hticket]
      · cases data with
        | none =>
          rw [Option.getD_none, List.length_nil] at hlength
          omega
        | some tickets =>
          exact ⟨tickets, _, rfl, hlength, hticket, classifyExpoTicket_invalid hinvalid⟩

theorem flatten_chunkMessages (messages : List (PushMessage Data)) :
    (chunkMessages messages EXPO_CHUNK_SIZE).flatten = messages :=
  flatten_chunkFrom (by decide) (by omega)

/-- The requests are the chunks taken so far, in order. -/
theorem flatten_requests (q : SendBatch Data) :
    (requests q).flatten = toExpoRequestBody q.taken.flatten := by
  rw [requests, toExpoRequestBody, List.map_flatten]
  rfl

/-- The call after any of its requests have ended. -/
theorem sound_of_sendBatch (h : Reachable sendStep anyStep (sendBatch messages) q) :
    Sound sendChunk (min EXPO_CHUNK_CONCURRENCY (chunkMessages messages EXPO_CHUNK_SIZE).length) q ∧
      Manned q ∧ q.jobs = chunkMessages messages EXPO_CHUNK_SIZE := by
  refine sound_of_reachable ?_ h
  by_cases hnil : chunkMessages messages EXPO_CHUNK_SIZE = []
  · exact Or.inr hnil
  · have hlength := List.length_pos_iff.mpr hnil
    exact Or.inl (lt_min (by decide) hlength)

/-- The results of a call whose requests have all ended line up with the messages. -/
theorem batchResult_of_idle (h : Reachable sendStep anyStep (sendBatch messages) q)
    (hidle : q.busy = []) :
    ∃ results, batchResult q = some results ∧ results.length = messages.length ∧
      ∀ i m, messages[i]? = some m → ∃ answer r,
        q.answers (i/EXPO_CHUNK_SIZE) = some answer ∧ results[i]? = some r ∧
          ResultFor (chunkOf messages i) answer (i%EXPO_CHUNK_SIZE) m r := by
  obtain ⟨hsound, hmanned, hjobs⟩ := sound_of_sendBatch h
  obtain ⟨_, hanswer, houtcomes⟩ := outcomes_of_idle hsound hmanned hidle
  rw [hjobs] at houtcomes hanswer
  let g (k : ℕ) (chunk : List (PushMessage Data)) : List PushSendResult :=
    sendChunk chunk ((q.answers k).getD default)
  have hplace (j : ℕ) := getElem?_flatten_mapIdx_chunkFrom (i := 0) (j := j)
    (by decide : 0 < EXPO_CHUNK_SIZE) (by omega : messages.length ≤ 0+messages.length) g
    fun k chunk => length_sendChunk chunk _
  simp only [Nat.zero_add] at hplace
  have hown : ∀ i m, messages[i]? = some m → ∃ answer r,
      q.answers (i/EXPO_CHUNK_SIZE) = some answer ∧ (outcomes q).flatten[i]? = some r ∧
        ResultFor (chunkOf messages i) answer (i%EXPO_CHUNK_SIZE) m r := by
    intro i m hm
    have hi := (List.getElem?_eq_some_iff.mp hm).1
    have hwhole := Nat.div_add_mod' i EXPO_CHUNK_SIZE
    have hmod := Nat.mod_lt i (by decide : EXPO_CHUNK_SIZE > 0)
    obtain ⟨answer, hk⟩ := hanswer (i/EXPO_CHUNK_SIZE)
      (lt_length_chunkFrom (by omega) (by decide) (by omega))
    have hchunk : (chunkOf messages i)[i%EXPO_CHUNK_SIZE]? = some m := by
      rw [chunkOf, List.getElem?_take, if_pos hmod, List.getElem?_drop, hwhole, hm]
    obtain ⟨r, hr, hfor⟩ := resultFor_sendChunk answer hchunk
    refine ⟨answer, r, hk, ?_, hfor⟩
    rw [houtcomes]
    refine (hplace i).trans ?_
    rw [if_pos hi]
    simp only [g, hk, Option.getD_some]
    exact hr
  refine ⟨(outcomes q).flatten, by rw [batchResult, if_pos hidle], ?_, hown⟩
  have hend : (outcomes q).flatten[messages.length]? = none := by
    rw [houtcomes]
    refine (hplace messages.length).trans ?_
    rw [if_neg (lt_irrefl _)]
  rw [List.getElem?_eq_none_iff] at hend
  by_contra hne
  have hshort : (outcomes q).flatten.length < messages.length := by omega
  obtain ⟨_, r, _, hr, _⟩ := hown _ _ (List.getElem?_eq_getElem hshort)
  rw [List.getElem?_eq_none (le_refl _)] at hr
  cases hr

def sampleMessages : List (PushMessage Unit) :=
  [⟨"first", "Yeni teklif", "", none⟩, ⟨"second", "Yeni teklif", "", none⟩]

/-- The first device is gone, the second message was accepted. -/
def sampleTickets : List ExpoPushTicket :=
  [⟨.error, none, some ⟨some "DeviceNotRegistered"⟩⟩, ⟨.ok, none, none⟩]

def sampleSent : SendBatch Unit := start 1 (fresh (chunkMessages sampleMessages EXPO_CHUNK_SIZE))

def sampleAnswered : SendBatch Unit := after sendStep sampleSent [(0, .json (some sampleTickets))]

end Results

end Kurtar.PushBatches
