import S7Comm.Proofs.Operations

/-!
# What operations do where no request can be sent

A call reaches the session by one of many routes: a range of bytes asks for the length of messages
first, a single item goes to the list it is in, a job of control takes a reference. But the first
thing that any of them does beyond looking at its arguments is to ask whether a request can be sent.

* `Channel.Refuses c call`: either `call s = .error e s` for all states `s`, with an error `e` that is
  found in the arguments (`e.isLocal`), or `call s = .error e s` wherever `c.checkReady s = .error e`.
  In both cases nothing has been done.
* `Command.emptyAnswer?`: operations that have been given nothing to do ask for nothing, and return
  the empty answer (`Client.perform_of_empty`).
* **Main result** (`Client.refuses_perform`): all others refuse.

This is no `Client.Law`, as it is lost when a call is put behind another one that does something; what
matters is the first part of each operation.
-/

namespace S7Comm

open Call

/-! ## Refusal -/

namespace Channel

variable {S α β : Type} (c : Channel S)

/-- A call that fails where no request can be sent: with an error found in its arguments, which does
not depend on the state, or with that by which the state is refused. -/
def Refuses (call : Call S α) : Prop :=
  (∃ e, e.isLocal = true ∧ ∀ s, call s = .error e s) ∨
    ∀ s e, c.checkReady s = .error e → call s = .error e s

namespace Refuses

variable {c}

/-- What would follow does not matter: a call refuses if its first part does. -/
theorem bind {call : Call S α} (h : c.Refuses call) (next : α → Call S β) :
    c.Refuses (call >>= next) := by
  rcases h with ⟨e, hlocal, hcall⟩ | hcall
  · exact .inl ⟨e, hlocal, fun s => bind_of_error (hcall s) next⟩
  · exact .inr fun s e hs => bind_of_error (hcall s e hs) next

/-- An error found in the arguments. -/
theorem refuse {e : Error} (he : e.isLocal = true) : c.Refuses (throw e : Call S α) :=
  .inl ⟨e, he, fun _ => rfl⟩

/-- Asking whether a request can be sent. -/
theorem ensureReady : c.Refuses c.ensureReady := by
  refine .inr fun s e hs => ?_
  rw [Channel.ensureReady, hs]
  rfl

/-- A look at the arguments, and a call that refuses whatever comes of it: what is wrong with the
arguments is an error in every state, and else it is the call that refuses. -/
theorem ofExcept_bind {result : Except Error α} {next : α → Call S β} (hlocal : Local result)
    (hnext : ∀ value, result = .ok value → c.Refuses (next value)) :
    c.Refuses (Call.ofExcept result >>= next) := by
  cases result with
  | ok value => exact hnext value rfl
  | error e => exact (refuse (hlocal e rfl)).bind next

/-- A check of the arguments. -/
theorem guard {condition : Prop} [Decidable condition] {e : Error} {next : PUnit → Call S α}
    (he : e.isLocal = true) (hnext : ¬ condition → c.Refuses (next ())) :
    c.Refuses (if condition then throw e >>= next else next ()) := by
  split
  · exact (refuse he).bind next
  · next hcondition => exact hnext hcondition

/-! ### Lists of items -/

/-- Reading some items: the first thing that is done is to ask whether a request can be sent. Reading
none is no such call, as it has its result at once. -/
theorem readEach {items : List RequestItem} (h : items ≠ []) :
    c.Refuses (Batch.readEach c items) := by
  unfold Batch.readEach
  rw [if_neg h]
  exact ensureReady.bind _

/-- Reading some items all of which must succeed. -/
theorem readAll {items : List RequestItem} (h : items ≠ []) : c.Refuses (Batch.readAll c items) :=
  (readEach h).bind _

/-- Writing some items. -/
theorem writeEach {items : List RequestItem} (h : items ≠ []) (data : List DataItem) :
    c.Refuses (Batch.writeEach c items data) := by
  unfold Batch.writeEach
  refine guard rfl fun _ => ?_
  dsimp only
  rw [if_neg h]
  exact ensureReady.bind _

/-- Writing some items all of which must succeed. -/
theorem writeAll {items : List RequestItem} (h : items ≠ []) (data : List DataItem) :
    c.Refuses (Batch.writeAll c items data) :=
  (writeEach h data).bind _

end Refuses

end Channel

namespace Client

variable {S : Type} {c : Client S}

/-! ## Operations with something to do -/

/-! ### Reading -/

/-- Reading a single item. -/
theorem refuses_readItem (item : StandardItem) : c.channel.Refuses (c.readItem item) :=
  (Channel.Refuses.readAll (List.cons_ne_nil _ _)).bind _

/-- Reading bytes: an argument that is wrong is found first; in an area of bytes the question whether
a request can be sent comes next, and for timers and counters it is that of the single item. -/
theorem refuses_readBytesAt (address : Address) (count : Nat) :
    c.channel.Refuses (c.readBytesAt address count) := by
  unfold readBytesAt
  refine .guard rfl fun _ => ?_
  dsimp only
  split
  · refine .guard rfl fun _ => ?_
    exact .ofExcept_bind (local_argument _) fun item _ => refuses_readItem item
  · exact Channel.Refuses.ensureReady.bind _

/-- Reading bytes from an address on. -/
theorem refuses_readBytes (address : String) (count : Nat) :
    c.channel.Refuses (c.readBytes address count) :=
  .ofExcept_bind (local_parse address) fun address _ => refuses_readBytesAt address count

/-- Reading a number. -/
theorem refuses_readAs (α : Type) [Numeric α] (order : ByteOrder) (address : String) :
    c.channel.Refuses (c.readAs α order address) := by
  have hitem (address : Address) (count : UInt16) :
      Local ((StandardItem.bytes address count).mapError Error.invalidArgument) :=
    local_argument _
  refine .ofExcept_bind ((local_parse address).bind fun address _ => hitem address _) ?_
  intro item _
  exact (refuses_readItem item).bind _

/-- Reading elements at a place given by its parts. -/
theorem refuses_readRaw (type : ElementType) (count : UInt16) (area : Area) (block : UInt16)
    (byte : UInt32) (bit : UInt8) :
    c.channel.Refuses (c.readRaw type count area block byte bit) := by
  refine .ofExcept_bind (local_argument _) fun address _ => ?_
  exact .ofExcept_bind (local_argument _) fun item _ => refuses_readItem item

/-- Reading a bit. -/
theorem refuses_readBit (address : String) : c.channel.Refuses (c.readBit address) := by
  refine .ofExcept_bind (local_parse address) fun address _ => ?_
  exact (refuses_readItem (.single address)).bind _

/-- There is an item for each address, -/
theorem bitItems_ne_nil {address : String} {addresses : List String} {items : List RequestItem}
    (h : bitItems (address :: addresses) = .ok items) : items ≠ [] :=
  mapM_cons_ne_nil h

/-- whatever is asked for there. -/
theorem byteItems_ne_nil {address : String} {addresses : List String} {count : UInt16}
    {items : List RequestItem} (h : byteItems (address :: addresses) count = .ok items) :
    items ≠ [] :=
  mapM_cons_ne_nil h

/-- Reading bits all of which must succeed. -/
theorem refuses_readBits (address : String) (addresses : List String) :
    c.channel.Refuses (c.readBits (address :: addresses)) := by
  refine .ofExcept_bind (local_bitItems _) fun items hitems => ?_
  exact (Channel.Refuses.readAll (bitItems_ne_nil hitems)).bind _

/-- Reading bits as far as they can be read. -/
theorem refuses_readEachBit (address : String) (addresses : List String) :
    c.channel.Refuses (c.readEachBit (address :: addresses)) := by
  refine .ofExcept_bind (local_bitItems _) fun items hitems => ?_
  exact (Channel.Refuses.readEach (bitItems_ne_nil hitems)).bind _

/-- Reading numbers. -/
theorem refuses_readNumbers (α : Type) [Numeric α] (address : String) (addresses : List String) :
    c.channel.Refuses (c.readNumbers α (address :: addresses)) := by
  refine .ofExcept_bind (local_byteItems _ _) fun items hitems => ?_
  exact (Channel.Refuses.readAll (byteItems_ne_nil hitems)).bind _

/-- Reading a string. -/
theorem refuses_readString (address : String) : c.channel.Refuses (c.readString address) := by
  refine .ofExcept_bind (local_parse address) fun address _ => ?_
  exact (refuses_readBytesAt address _).bind _

/-- Reading a string up to a length. -/
theorem refuses_readStringUpTo (address : String) (length : Nat) :
    c.channel.Refuses (c.readStringUpTo address length) := by
  unfold readStringUpTo
  refine .guard rfl fun _ => ?_
  refine .ofExcept_bind (local_parse address) fun address _ => ?_
  exact (refuses_readBytesAt address _).bind _

/-- Reading items of a numerical control. -/
theorem refuses_readNck {items : List NckItem} (h : items ≠ []) :
    c.channel.Refuses (c.readNck items) := by
  refine .readAll fun hnone => h ?_
  exact List.map_eq_nil_iff.mp hnone

/-- Reading a number of a numerical control. -/
theorem refuses_readNckAs (α : Type) [Numeric α] (item : NckItem) :
    c.channel.Refuses (c.readNckAs α item) :=
  ((refuses_readNck (List.cons_ne_nil item [])).bind _).bind _

/-- Reading a text of a numerical control. -/
theorem refuses_readNckText (text : NckText) : c.channel.Refuses (c.readNckText text) := by
  have hitem : c.channel.Refuses (c.readNckItem text.item) :=
    (refuses_readNck (List.cons_ne_nil _ _)).bind _
  exact hitem.bind _

/-- Reading a position of a numerical control. -/
theorem refuses_readNckPosition (position : NckPosition) :
    c.channel.Refuses (c.readNckPosition position) := by
  have hne : position.items ≠ [] := by cases position <;> exact List.cons_ne_nil _ _
  exact (refuses_readNck hne).bind _

/-! ### Writing -/

/-- Writing a single item. -/
theorem refuses_writeItem (item : StandardItem) (data : DataItem) :
    c.channel.Refuses (c.writeItem item data) :=
  (Channel.Refuses.writeAll (List.cons_ne_nil _ _) _).bind _

/-- Writing bytes. -/
theorem refuses_writeBytesAt (address : Address) (bytes : Bytes) :
    c.channel.Refuses (c.writeBytesAt address bytes) := by
  unfold writeBytesAt
  split
  · exact .ofExcept_bind (local_argument _) fun pair _ => refuses_writeItem pair.1 pair.2
  split
  · exact .refuse rfl
  · exact Channel.Refuses.ensureReady.bind _

/-- Writing bytes from an address on. -/
theorem refuses_writeBytes (address : String) (bytes : Bytes) :
    c.channel.Refuses (c.writeBytes address bytes) :=
  .ofExcept_bind (local_parse address) fun address _ => refuses_writeBytesAt address bytes

/-- Writing bytes that stand for a value: a value without such bytes is wrong as an argument, in every
state, and before its address is looked at. -/
theorem refuses_writeForm (bytes : Except ArgumentError Bytes) (address : String) :
    c.channel.Refuses
      (Call.ofExcept (bytes.mapError .invalidArgument) >>= c.writeBytes address) :=
  .ofExcept_bind (local_argument _) fun bytes _ => refuses_writeBytes address bytes

/-- Writing elements to a place given by its parts. -/
theorem refuses_writeRaw (type : ElementType) (count : UInt16) (area : Area) (block : UInt16)
    (byte : UInt32) (bit : UInt8) (size : TransportSize) (bytes : Bytes) :
    c.channel.Refuses (c.writeRaw type count area block byte bit size bytes) := by
  unfold writeRaw
  refine .guard rfl fun _ => ?_
  refine .ofExcept_bind (local_argument _) fun address _ => ?_
  exact .ofExcept_bind (local_argument _) fun item _ => refuses_writeItem item _

/-- Writing a bit. -/
theorem refuses_writeBit (address : String) (value : Bool) :
    c.channel.Refuses (c.writeBit address value) :=
  .ofExcept_bind (local_parse address) fun _ _ => refuses_writeItem _ _

/-- Writing a string. -/
theorem refuses_writeString (address text : String) :
    c.channel.Refuses (c.writeString address text) := by
  refine .ofExcept_bind (local_parse address) fun address _ => ?_
  refine .ofExcept_bind (local_argument _) fun payload _ => ?_
  refine .guard rfl fun _ => ?_
  exact .ofExcept_bind (local_argument _) fun start _ => refuses_writeBytesAt start _

end Client

/-! ## Operations with nothing to do -/

/-- What an operation returns that has been given nothing to do. -/
def Command.emptyAnswer? : Command → Option Answer
  | .readBits [] => some (.bits [])
  | .readEachBit [] => some (.maybeBits [])
  | .readNumbers type [] => some (.numbers type [])
  | .readMany ⟨⟨[]⟩⟩ => some (.items [])
  | .readEachOf ⟨⟨[]⟩⟩ => some (.payloads [])
  | .writeMany ⟨_, ⟨[]⟩⟩ => some .nothing
  | .writeEachOf ⟨_, ⟨[]⟩⟩ => some (.codes [])
  | .readNck [] => some (.items [])
  | _ => none

namespace Client

variable {S : Type} {c : Client S}

/-! ## All operations -/

/-- **An operation that has something to do refuses**, whatever operation it is, on whatever channel:
by cases on the operation, each with its lemma from above. -/
theorem refuses_perform {command : Command} (h : command.emptyAnswer? = none) :
    c.channel.Refuses (c.perform command) := by
  -- a list of places is empty, which is excluded, or it has a first one
  cases command with
  | readRaw type count area block byte bit =>
    exact (refuses_readRaw type count area block byte bit).bind _
  | readBytes address count => exact (refuses_readBytes address count).bind _
  | readByte address => exact (refuses_readAs UInt8 .big address).bind _
  | readBit address => exact (refuses_readBit address).bind _
  | readBits addresses =>
    cases addresses with
    | nil => cases h
    | cons address addresses => exact (refuses_readBits address addresses).bind _
  | readEachBit addresses =>
    cases addresses with
    | nil => cases h
    | cons address addresses => exact (refuses_readEachBit address addresses).bind _
  | readNumber type address => exact (refuses_readAs type.Value _ address).bind _
  | readNumbers type addresses =>
    cases addresses with
    | nil => cases h
    | cons address addresses => exact (refuses_readNumbers type.Value address addresses).bind _
  | readMany list =>
    obtain ⟨⟨items⟩⟩ := list
    cases items with
    | nil => cases h
    | cons item items => exact (Channel.Refuses.readAll (List.cons_ne_nil item items)).bind _
  | readEachOf list =>
    obtain ⟨⟨items⟩⟩ := list
    cases items with
    | nil => cases h
    | cons item items =>
      exact ((Channel.Refuses.readEach (List.cons_ne_nil item items)).bind _).bind _
  | readString address => exact (refuses_readString address).bind _
  | readStringUpTo address length => exact (refuses_readStringUpTo address length).bind _
  | readDate address => exact ((refuses_readBytes address _).bind _).bind _
  | readTimeOfDay address => exact ((refuses_readBytes address _).bind _).bind _
  | readTime address => exact ((refuses_readBytes address _).bind _).bind _
  | readDateTime address => exact ((refuses_readBytes address _).bind _).bind _
  | writeRaw type count area block byte bit size bytes =>
    exact (refuses_writeRaw type count area block byte bit size bytes).bind _
  | writeBytes address bytes => exact (refuses_writeBytes address bytes).bind _
  | writeByte address value => exact (refuses_writeBytes address [value]).bind _
  | writeBit address value => exact (refuses_writeBit address value).bind _
  | writeNumber type address value => exact (refuses_writeBytes address _).bind _
  | writeString address text => exact (refuses_writeString address text).bind _
  | writeDate address date => exact (refuses_writeForm _ address).bind _
  | writeTimeOfDay address time => exact (refuses_writeBytes address _).bind _
  | writeTime address duration => exact (refuses_writeForm _ address).bind _
  | writeDateTime address moment => exact (refuses_writeForm _ address).bind _
  | writeMany list =>
    obtain ⟨order, ⟨pairs⟩⟩ := list
    cases pairs with
    | nil => cases h
    | cons pair pairs =>
      exact ((Channel.Refuses.writeAll (List.cons_ne_nil _ _) _).bind _).bind _
  | writeEachOf list =>
    obtain ⟨order, ⟨pairs⟩⟩ := list
    cases pairs with
    | nil => cases h
    | cons pair pairs => exact (Channel.Refuses.writeEach (List.cons_ne_nil _ _) _).bind _
  | control job => exact (Channel.Refuses.ensureReady.bind _).bind _
  | readNck items =>
    cases items with
    | nil => cases h
    | cons item items => exact (refuses_readNck (List.cons_ne_nil item items)).bind _
  | readNckText text => exact (refuses_readNckText text).bind _
  | readNckReal real => exact (refuses_readNckAs Real64 real.item).bind _
  | readNckPosition position => exact (refuses_readNckPosition position).bind _
  | readNckWord word => exact (refuses_readNckAs UInt16 word.item).bind _
  | readFirstAlarm => exact (refuses_readNckAs UInt32 .firstAlarm).bind _

/-- An operation that has nothing to do returns the empty answer, in every state, also of a session
that is faulted. -/
theorem perform_of_empty {command : Command} {answer : Answer}
    (h : command.emptyAnswer? = some answer) (s : S) : c.perform command s = .ok answer s := by
  unfold Command.emptyAnswer? at h
  split at h <;> cases h <;> rfl

end Client

end S7Comm
