import Rehoming.Brigade
import Rehoming.Proofs.Json.Records
import Rehoming.Proofs.Text.Ipv4
import Rehoming.Proofs.Text.Utf8

/-! Brigades survive as documents. What their reader gives has its values in canonical
form; any such brigade is written as a document that their reader accepts, and that reads
back as the same brigade if its opaque numbers are integers. -/

namespace Rehoming

open Json

/-! ## Secrets -/

namespace Secret

/-- An empty ciphertext has no member. -/
def written (text : String) : Option Value := if text.isEmpty then none else some (.string text)

theorem written_eq (text : String) :
    written text = (some (Value.string text)).filter (· ≠ .string "") := by
  unfold written
  by_cases empty : text = ""
  · simp [Option.filter, empty]
  · simp [Option.filter, empty]

def fieldValues (s : Secret) (name : String) : List (String × Option Value) :=
  [(masterName name, written s.master), (routerName name, written s.router)]

theorem members_eq (s : Secret) (name : String) :
    s.members name = present (s.fieldValues name) := by
  unfold members fieldValues written present
  by_cases master : s.master.isEmpty = true
  · by_cases router : s.router.isEmpty = true <;> simp [master, router]
  · by_cases router : s.router.isEmpty = true <;> simp [master, router]

theorem optional_text {members : List (String × Option Value)}
    (distinct : (members.map (·.1)).Nodup) {name text : String}
    (there : members.lookup name = some (written text)) (depth : Nat) :
    (Fields.written members).optional depth name "" Reader.text = some text := by
  rw [written_eq] at there
  exact Fields.optional_unless Value.string distinct there (fun same => Value.string.inj same)
    (Token.decode?_escaped text)

theorem read_written {members : List (String × Option Value)}
    (distinct : (members.map (·.1)).Nodup) {name : String} {s : Secret}
    (master : members.lookup (masterName name) = some (written s.master))
    (router : members.lookup (routerName name) = some (written s.router)) (depth : Nat) :
    read (Fields.written members) depth name = some s := by
  rw [read, optional_text distinct master, optional_text distinct router]
  rfl

end Secret

/-! ## Quotas -/

namespace Quota

def fieldValues (q : Quota) : List (String × Option Value) :=
  [("ver", some (.number (.int q.version)))]

/-- What is opaque in a quota has only integers for numbers. -/
def Integral (q : Quota) : Prop := ∀ e ∈ q.usage.entries, e.2.Integral

/-- A quota as its reader gives it at `depth + 1`. -/
structure Canonical (depth : Nat) (q : Quota) : Prop where
  low : Int64.minValue.toInt ≤ q.version
  high : q.version ≤ Int64.maxValue.toInt
  usage : q.usage.Foreign fieldNames depth

theorem toValue_eq (q : Quota) :
    q.toValue = .object (present q.fieldValues ++ q.usage.entries) := rfl

theorem version_integral {q : Quota} {depth : Nat} (h : q.Canonical depth) :
    (Number.int q.version).Integral := by
  have low : -9223372036854775808 ≤ q.version := h.low
  have high : q.version ≤ 9223372036854775807 := h.high
  exact ⟨low, by omega⟩

theorem int64_ofInt {q : Quota} {depth : Nat} (h : q.Canonical depth) (inner : Nat) :
    Reader.int64 inner (.numeral (Text.Decimal.ofInt q.version)) = some q.version := by
  rw [Reader.int64, Reader.intWithin, Numeral.int?, Numeral.number?_ofInt (version_integral h)]
  exact if_pos ⟨h.low, h.high⟩

theorem readOpen_toValue {q : Quota} {depth : Nat} (h : q.Canonical depth) (integral : q.Integral) :
    Fields.readOpen fieldNames (depth + 1) q.toValue.toNode =
      some (Fields.written q.fieldValues, q.usage) := by
  have named : q.fieldValues.map (·.1) = fieldNames := rfl
  rw [toValue_eq]
  exact Fields.readOpen_written named (by decide) h.usage integral

theorem reader_eq_some_iff {depth : Nat} {node : Node} {q : Quota} :
    reader depth node = some q ↔ ∃ fields, Fields.readOpen fieldNames depth node =
      some (fields, q.usage) ∧ fields.optional depth "ver" 0 Reader.int64 = some q.version := by
  constructor
  · intro h
    obtain ⟨⟨fields, usage⟩, record, h⟩ := Option.bind_eq_some_iff.mp h
    obtain ⟨version, given, h⟩ := Option.bind_eq_some_iff.mp h
    cases h
    exact ⟨fields, record, given⟩
  · rintro ⟨fields, record, given⟩
    simp only [reader, record, given, Option.bind_eq_bind, Option.bind_some]

theorem fieldValues_nodup (q : Quota) : (q.fieldValues.map (·.1)).Nodup :=
  show fieldNames.Nodup by decide

theorem reader_toValue {q : Quota} {depth : Nat} (h : q.Canonical depth) (integral : q.Integral) :
    reader (depth + 1) q.toValue.toNode = some q := by
  refine reader_eq_some_iff.mpr ⟨_, readOpen_toValue h integral, ?_⟩
  rw [Fields.optional_written q.fieldValues_nodup rfl]
  exact int64_ofInt h _

theorem readOpen_again {q : Quota} {depth : Nat} (h : q.Canonical depth) :
    ∃ usage, Fields.readOpen fieldNames (depth + 1) q.toValue.toNode =
      some (Fields.written q.fieldValues, usage) := by
  have named : q.fieldValues.map (·.1) = fieldNames := rfl
  rw [toValue_eq]
  exact Fields.readOpen_again named (by decide) h.usage

theorem reader_again {q : Quota} {depth : Nat} (h : q.Canonical depth) :
    ∃ r, reader (depth + 1) q.toValue.toNode = some r := by
  obtain ⟨usage, record⟩ := readOpen_again h
  refine ⟨⟨q.version, usage⟩, reader_eq_some_iff.mpr ⟨_, record, ?_⟩⟩
  rw [Fields.optional_written q.fieldValues_nodup rfl]
  exact int64_ofInt h _

theorem int64_bounds {depth : Nat} {node : Node} {i : Int}
    (h : Reader.int64 depth node = some i) :
    Int64.minValue.toInt ≤ i ∧ i ≤ Int64.maxValue.toInt := by
  unfold Reader.int64 Reader.intWithin at h
  split at h
  · split at h
    · split at h
      · rename_i bounds
        cases h
        exact bounds
      · cases h
    · cases h
  · cases h

theorem reader_canonical {depth : Nat} {node : Node} {q : Quota}
    (h : reader (depth + 1) node = some q) : q.Canonical depth := by
  obtain ⟨fields, record, given⟩ := reader_eq_some_iff.mp h
  have bounds : Int64.minValue.toInt ≤ q.version ∧ q.version ≤ Int64.maxValue.toInt := by
    rcases Fields.optional_eq_some given with zero | ⟨node, read⟩
    · rw [zero]
      decide
    · exact int64_bounds read
  exact ⟨bounds.1, bounds.2, Fields.readOpen_foreign record⟩

theorem empty_canonical (depth : Nat) : empty.Canonical depth :=
  ⟨by decide, by decide, NameMap.foreign_empty _ _⟩

end Quota

/-! ## Users -/

namespace User

def fieldValues (u : User) : List (String × Option Value) :=
  ("quotas", some u.quota.toValue) :: (u.wgPsk.fieldValues "wg_psk"
    ++ u.cloakBypassUid.fieldValues "cloak_bypass_uid"
    ++ u.ipsecUsername.fieldValues "ipsec_username" ++ u.ipsecPassword.fieldValues "ipsec_password"
    ++ u.outlineSecret.fieldValues "outline_secret")

/-- What is opaque in a user has only integers for numbers. -/
structure Integral (u : User) : Prop where
  quota : u.quota.Integral
  others : ∀ e ∈ u.others.entries, e.2.Integral

/-- A user as its reader gives it at `depth + 2`. -/
structure Canonical (depth : Nat) (u : User) : Prop where
  quota : u.quota.Canonical depth
  others : u.others.Foreign fieldNames (depth + 1)

theorem toValue_eq (u : User) :
    u.toValue = .object (present u.fieldValues ++ u.others.entries) := by
  have first (rest : List (String × Option Value)) :
      present (("quotas", some u.quota.toValue) :: rest) =
        ("quotas", u.quota.toValue) :: present rest := rfl
  rw [toValue, fieldValues, first]
  simp only [present_append, Secret.members_eq, List.cons_append, List.append_assoc]

theorem fieldValues_nodup (u : User) : (u.fieldValues.map (·.1)).Nodup :=
  show fieldNames.Nodup by decide

theorem readOpen_toValue {u : User} {depth : Nat} (h : u.Canonical depth) (integral : u.Integral) :
    Fields.readOpen fieldNames (depth + 2) u.toValue.toNode =
      some (Fields.written u.fieldValues, u.others) := by
  have named : u.fieldValues.map (·.1) = fieldNames := rfl
  rw [toValue_eq]
  exact Fields.readOpen_written named (by decide) h.others integral.others

/-- What the fields of a user's record say. -/
structure ReadFrom (fields : Fields) (depth : Nat) (u : User) : Prop where
  quota : fields.optional depth "quotas" .empty Quota.reader = some u.quota
  wgPsk : Secret.read fields depth "wg_psk" = some u.wgPsk
  cloakBypassUid : Secret.read fields depth "cloak_bypass_uid" = some u.cloakBypassUid
  ipsecUsername : Secret.read fields depth "ipsec_username" = some u.ipsecUsername
  ipsecPassword : Secret.read fields depth "ipsec_password" = some u.ipsecPassword
  outlineSecret : Secret.read fields depth "outline_secret" = some u.outlineSecret

theorem reader_eq_some_iff {depth : Nat} {node : Node} {u : User} :
    reader depth node = some u ↔ ∃ fields, Fields.readOpen fieldNames depth node =
      some (fields, u.others) ∧ u.ReadFrom fields depth := by
  constructor
  · intro h
    obtain ⟨⟨fields, others⟩, record, h⟩ := Option.bind_eq_some_iff.mp h
    obtain ⟨quota, hq, h⟩ := Option.bind_eq_some_iff.mp h
    obtain ⟨wgPsk, h1, h⟩ := Option.bind_eq_some_iff.mp h
    obtain ⟨cloakBypassUid, h2, h⟩ := Option.bind_eq_some_iff.mp h
    obtain ⟨ipsecUsername, h3, h⟩ := Option.bind_eq_some_iff.mp h
    obtain ⟨ipsecPassword, h4, h⟩ := Option.bind_eq_some_iff.mp h
    obtain ⟨outlineSecret, h5, h⟩ := Option.bind_eq_some_iff.mp h
    cases h
    exact ⟨fields, record, hq, h1, h2, h3, h4, h5⟩
  · rintro ⟨fields, record, given⟩
    simp only [reader, record, given.quota, given.wgPsk, given.cloakBypassUid, given.ipsecUsername,
      given.ipsecPassword, given.outlineSecret, Option.bind_eq_bind, Option.bind_some]

theorem reader_toValue {u : User} {depth : Nat} (h : u.Canonical depth) (integral : u.Integral) :
    reader (depth + 2) u.toValue.toNode = some u := by
  have own := u.fieldValues_nodup
  have quota : (Fields.written u.fieldValues).optional (depth + 2) "quotas" .empty Quota.reader =
      some u.quota := by
    rw [Fields.optional_written own rfl]
    exact Quota.reader_toValue h.quota integral.quota
  exact reader_eq_some_iff.mpr ⟨_, readOpen_toValue h integral, quota,
    Secret.read_written own rfl rfl _, Secret.read_written own rfl rfl _,
    Secret.read_written own rfl rfl _, Secret.read_written own rfl rfl _,
    Secret.read_written own rfl rfl _⟩

theorem readOpen_again {u : User} {depth : Nat} (h : u.Canonical depth) :
    ∃ others, Fields.readOpen fieldNames (depth + 2) u.toValue.toNode =
      some (Fields.written u.fieldValues, others) := by
  have named : u.fieldValues.map (·.1) = fieldNames := rfl
  rw [toValue_eq]
  exact Fields.readOpen_again named (by decide) h.others

theorem reader_again {u : User} {depth : Nat} (h : u.Canonical depth) :
    ∃ v, reader (depth + 2) u.toValue.toNode = some v := by
  have own := u.fieldValues_nodup
  obtain ⟨others, record⟩ := readOpen_again h
  obtain ⟨q, read⟩ := Quota.reader_again h.quota
  have quota : (Fields.written u.fieldValues).optional (depth + 2) "quotas" .empty Quota.reader =
      some q := by
    rw [Fields.optional_written own rfl]
    exact read
  exact ⟨{ u with quota := q, others }, reader_eq_some_iff.mpr ⟨_, record, quota,
    Secret.read_written own rfl rfl _, Secret.read_written own rfl rfl _,
    Secret.read_written own rfl rfl _, Secret.read_written own rfl rfl _,
    Secret.read_written own rfl rfl _⟩⟩

theorem reader_canonical {depth : Nat} {node : Node} {u : User}
    (h : reader (depth + 2) node = some u) : u.Canonical depth := by
  obtain ⟨fields, record, given⟩ := reader_eq_some_iff.mp h
  refine ⟨?_, Fields.readOpen_foreign record⟩
  rcases Fields.optional_eq_some given.quota with none | ⟨node, read⟩
  · rw [none]
    exact Quota.empty_canonical depth
  · exact Quota.reader_canonical read

end User

/-! ## Brigades -/

/-- A transient value that is null is left out. -/
def kept (v : Value) : Option Value := if v.isNull then none else some v

theorem kept_eq (v : Value) : kept v = (some v).filter (· ≠ .null) := by
  cases v <;> rfl

theorem transient_eq (name : String) (v : Value) :
    Brigade.transient name v = present [(name, kept v)] := by
  unfold Brigade.transient kept present
  cases v.isNull <;> rfl

theorem optional_kept {members : List (String × Option Value)}
    (distinct : (members.map (·.1)).Nodup) {name : String} {v : Value} {depth : Nat}
    (canonical : v.Canonical (depth - 1)) (integral : v.Integral)
    (there : members.lookup name = some (kept v)) :
    (Fields.written members).optional depth name .null Reader.value = some v := by
  rw [kept_eq] at there
  exact Fields.optional_unless (fun v => v) distinct there (fun same => same)
    (Value.ofNode?_toNode canonical integral)

/-- A transient value is read again, left out or not. -/
theorem optional_kept_again {members : List (String × Option Value)}
    (distinct : (members.map (·.1)).Nodup) {name : String} {v : Value} {depth : Nat}
    (canonical : v.Canonical (depth - 1)) (there : members.lookup name = some (kept v)) :
    ∃ w, (Fields.written members).optional depth name .null Reader.value = some w := by
  unfold kept at there
  split at there
  · exact ⟨_, Fields.optional_absent distinct there _ _ _⟩
  · rw [Fields.optional_written distinct there]
    exact Value.ofNode?_again canonical

namespace Brigade

def fieldValues (b : Brigade) : List (String × Option Value) :=
  [("brigade_id", some (.string b.id)), ("endpoint_domain", some (.string b.domain)),
      ("endpoint_ipv4", some b.address.toValue), ("brigade_counters", kept b.counters),
      ("stats_counters_stack", kept b.countersStack), ("endpoints", kept b.endpoints)]
    ++ (b.wgPrivate.fieldValues "wg_private" ++ b.ovCaKey.fieldValues "ov_ca_key"
      ++ b.ipsecPsk.fieldValues "ipsec_psk")
    ++ [("users", some (.array (b.users.map User.toValue)))]

/-- What is opaque in a brigade has only integers for numbers. -/
structure Integral (b : Brigade) : Prop where
  counters : b.counters.Integral
  countersStack : b.countersStack.Integral
  endpoints : b.endpoints.Integral
  users : ∀ u ∈ b.users, u.Integral
  others : ∀ e ∈ b.others.entries, e.2.Integral

/-- A brigade as its reader gives it where documents nest to `Reader.maxDepth`. -/
structure Canonical (b : Brigade) : Prop where
  counters : b.counters.Canonical 126
  countersStack : b.countersStack.Canonical 126
  endpoints : b.endpoints.Canonical 126
  users : ∀ u ∈ b.users, u.Canonical 123
  others : b.others.Foreign fieldNames 126

theorem toValue_eq (b : Brigade) :
    b.toValue = .object (present b.fieldValues ++ b.others.entries) := by
  have front : [("brigade_id", .string b.id), ("endpoint_domain", .string b.domain),
      ("endpoint_ipv4", b.address.toValue)] = present [("brigade_id", some (.string b.id)),
        ("endpoint_domain", some (.string b.domain)),
        ("endpoint_ipv4", some b.address.toValue)] := rfl
  have users : [("users", .array (b.users.map User.toValue))] =
      present [("users", some (.array (b.users.map User.toValue)))] := rfl
  rw [toValue, front, users]
  simp only [transient_eq, Secret.members_eq, ← present_append]
  rfl

theorem address_reader (ip : Ipv4) (depth : Nat) :
    Ipv4.reader depth ip.toValue.toNode = some ip := by
  have text : Reader.text depth ip.toValue.toNode = some ip.toText := Token.decode?_escaped _
  rw [Ipv4.reader, Reader.parsed, text]
  exact Ipv4.ofText?_toText ip

theorem users_reader {users : List User} {depth : Nat} (canonical : ∀ u ∈ users, u.Canonical depth)
    (integral : ∀ u ∈ users, u.Integral) :
    Reader.list User.reader (depth + 3) (Value.array (users.map User.toValue)).toNode =
      some users :=
  Reader.list_toNode fun u hu => User.reader_toValue (canonical u hu) (integral u hu)

theorem fieldValues_nodup (b : Brigade) : (b.fieldValues.map (·.1)).Nodup :=
  show fieldNames.Nodup by decide

theorem readOpen_toValue {b : Brigade} (h : b.Canonical) (integral : b.Integral) :
    Fields.readOpen fieldNames Reader.maxDepth b.toValue.toNode =
      some (Fields.written b.fieldValues, b.others) := by
  have named : b.fieldValues.map (·.1) = fieldNames := rfl
  rw [toValue_eq]
  exact Fields.readOpen_written named (by decide) h.others integral.others

/-- What the fields of a brigade's record say. -/
structure ReadFrom (fields : Fields) (depth : Nat) (b : Brigade) : Prop where
  id : fields.required depth "brigade_id" Reader.text = some b.id
  domain : fields.optional depth "endpoint_domain" "" Reader.text = some b.domain
  address : fields.required depth "endpoint_ipv4" Ipv4.reader = some b.address
  counters : fields.optional depth "brigade_counters" .null Reader.value = some b.counters
  countersStack :
    fields.optional depth "stats_counters_stack" .null Reader.value = some b.countersStack
  endpoints : fields.optional depth "endpoints" .null Reader.value = some b.endpoints
  wgPrivate : Secret.read fields depth "wg_private" = some b.wgPrivate
  ovCaKey : Secret.read fields depth "ov_ca_key" = some b.ovCaKey
  ipsecPsk : Secret.read fields depth "ipsec_psk" = some b.ipsecPsk
  users : fields.optional depth "users" [] (Reader.list User.reader) = some b.users

theorem reader_eq_some_iff {depth : Nat} {node : Node} {b : Brigade} :
    reader depth node = some b ↔ ∃ fields, Fields.readOpen fieldNames depth node =
      some (fields, b.others) ∧ b.ReadFrom fields depth := by
  constructor
  · intro h
    obtain ⟨⟨fields, others⟩, record, h⟩ := Option.bind_eq_some_iff.mp h
    obtain ⟨id, h1, h⟩ := Option.bind_eq_some_iff.mp h
    obtain ⟨domain, h2, h⟩ := Option.bind_eq_some_iff.mp h
    obtain ⟨address, h3, h⟩ := Option.bind_eq_some_iff.mp h
    obtain ⟨counters, h4, h⟩ := Option.bind_eq_some_iff.mp h
    obtain ⟨countersStack, h5, h⟩ := Option.bind_eq_some_iff.mp h
    obtain ⟨endpoints, h6, h⟩ := Option.bind_eq_some_iff.mp h
    obtain ⟨wgPrivate, h7, h⟩ := Option.bind_eq_some_iff.mp h
    obtain ⟨ovCaKey, h8, h⟩ := Option.bind_eq_some_iff.mp h
    obtain ⟨ipsecPsk, h9, h⟩ := Option.bind_eq_some_iff.mp h
    obtain ⟨users, h10, h⟩ := Option.bind_eq_some_iff.mp h
    cases h
    exact ⟨fields, record, h1, h2, h3, h4, h5, h6, h7, h8, h9, h10⟩
  · rintro ⟨fields, record, given⟩
    simp only [reader, record, given.id, given.domain, given.address, given.counters,
      given.countersStack, given.endpoints, given.wgPrivate, given.ovCaKey, given.ipsecPsk,
      given.users, Option.bind_eq_bind, Option.bind_some]

/-- Whatever its lists and opaque values are read as, the other fields of a brigade's record say
what they said. -/
theorem readFrom_written {b : Brigade} {counters countersStack endpoints : Value}
    {users : List User} (others : NameMap Value)
    (hc : (Fields.written b.fieldValues).optional Reader.maxDepth "brigade_counters" .null
      Reader.value = some counters)
    (hs : (Fields.written b.fieldValues).optional Reader.maxDepth "stats_counters_stack" .null
      Reader.value = some countersStack)
    (he : (Fields.written b.fieldValues).optional Reader.maxDepth "endpoints" .null
      Reader.value = some endpoints)
    (hu : Reader.list User.reader 126 (Value.array (b.users.map User.toValue)).toNode =
      some users) :
    ({ b with counters, countersStack, endpoints, users, others } : Brigade).ReadFrom
      (Fields.written b.fieldValues) Reader.maxDepth := by
  have own := b.fieldValues_nodup
  exact {
    id := by
      rw [Fields.required_written own rfl]
      exact Token.decode?_escaped b.id
    domain := by
      rw [Fields.optional_written own rfl]
      exact Token.decode?_escaped b.domain
    address := by
      rw [Fields.required_written own rfl]
      exact address_reader b.address 126
    counters := hc
    countersStack := hs
    endpoints := he
    wgPrivate := Secret.read_written own rfl rfl _
    ovCaKey := Secret.read_written own rfl rfl _
    ipsecPsk := Secret.read_written own rfl rfl _
    users := by
      rw [Fields.optional_written own rfl]
      exact hu }

theorem reader_toValue {b : Brigade} (h : b.Canonical) (integral : b.Integral) :
    reader Reader.maxDepth b.toValue.toNode = some b := by
  have own := b.fieldValues_nodup
  exact reader_eq_some_iff.mpr ⟨_, readOpen_toValue h integral, readFrom_written b.others
    (optional_kept own h.counters integral.counters rfl)
    (optional_kept own h.countersStack integral.countersStack rfl)
    (optional_kept own h.endpoints integral.endpoints rfl) (users_reader h.users integral.users)⟩

theorem readOpen_again {b : Brigade} (h : b.Canonical) :
    ∃ others, Fields.readOpen fieldNames Reader.maxDepth b.toValue.toNode =
      some (Fields.written b.fieldValues, others) := by
  have named : b.fieldValues.map (·.1) = fieldNames := rfl
  rw [toValue_eq]
  exact Fields.readOpen_again named (by decide) h.others

/-- Whatever numbers are in it, a brigade is read again, under its name. -/
theorem reader_again {b : Brigade} (h : b.Canonical) :
    ∃ d, reader Reader.maxDepth b.toValue.toNode = some d ∧ d.id = b.id := by
  have transient (name : String) {v : Value} (canonical : v.Canonical 126)
      (there : b.fieldValues.lookup name = some (kept v)) :
      ∃ w, (Fields.written b.fieldValues).optional Reader.maxDepth name .null Reader.value =
        some w := optional_kept_again b.fieldValues_nodup canonical there
  obtain ⟨others, record⟩ := readOpen_again h
  obtain ⟨counters, hc⟩ := transient "brigade_counters" h.counters rfl
  obtain ⟨countersStack, hs⟩ := transient "stats_counters_stack" h.countersStack rfl
  obtain ⟨endpoints, he⟩ := transient "endpoints" h.endpoints rfl
  obtain ⟨users, hu⟩ := Reader.list_again fun u mem => User.reader_again (h.users u mem)
  exact ⟨{ b with counters, countersStack, endpoints, users, others },
    reader_eq_some_iff.mpr ⟨_, record, readFrom_written others hc hs he hu⟩, rfl⟩

theorem value_canonical {fields : Fields} {name : String} {v : Value}
    (h : fields.optional 127 name .null Reader.value = some v) : v.Canonical 126 := by
  rcases Fields.optional_eq_some h with rfl | ⟨node, read⟩
  · exact .null
  · exact Value.ofNode?_canonical read

theorem reader_canonical {node : Node} {b : Brigade} (h : reader Reader.maxDepth node = some b) :
    b.Canonical := by
  obtain ⟨fields, record, given⟩ := reader_eq_some_iff.mp h
  refine ⟨value_canonical given.counters, value_canonical given.countersStack,
    value_canonical given.endpoints, fun u mem => ?_, Fields.readOpen_foreign record⟩
  rcases Fields.optional_eq_some given.users with none | ⟨node, read⟩
  · rw [none] at mem
    cases mem
  · obtain ⟨inner, items, depth, -, made⟩ := Reader.list_eq_some read
    obtain ⟨item, -, made⟩ := mem_of_mapM_some made mem
    cases depth
    exact User.reader_canonical made

theorem node_toBytes (b : Brigade) : Node.ofBytes? b.toBytes = some b.toValue.toNode := by
  rw [toBytes, Node.ofBytes?, Text.Utf8.symbols_encode, Node.ofSymbols?_compact]

/-- **Brigades are read back.** Any brigade that a document can give, and whose opaque
numbers are integers, is written as a document that gives the same brigade. -/
theorem ofBytes?_toBytes {b : Brigade} (h : b.Canonical) (integral : b.Integral) :
    ofBytes? b.toBytes = some b := by
  rw [ofBytes?, node_toBytes, Option.bind_some]
  exact reader_toValue h integral

theorem ofBytes?_again {b : Brigade} (h : b.Canonical) :
    ∃ d, ofBytes? b.toBytes = some d ∧ d.id = b.id := by
  rw [ofBytes?, node_toBytes, Option.bind_some]
  exact reader_again h

theorem ofBytes?_canonical {document : Bytes} {b : Brigade} (h : ofBytes? document = some b) :
    b.Canonical := by
  obtain ⟨node, -, read⟩ := Option.bind_eq_some_iff.mp h
  exact reader_canonical read

end Brigade

end Rehoming
