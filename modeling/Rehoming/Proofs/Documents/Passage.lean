import Rehoming.Proofs.Documents.Survival
import Rehoming.Proofs.Json.Rearranged

/-! What a brigade does not model passes through it. A document that is read as a brigade and the
document that the brigade is written as are compared as plain values, member by member: the members
of the brigade, of each user and of each quota. The order in which the first document has its
members does not matter. -/

namespace Rehoming

open Json

/-! ## The parts of a document -/

theorem Json.Reader.text_plain {depth : Nat} {node : Json.Node} {s : String}
    (h : Reader.text depth node = some s) : Value.ofNode? depth node = some (.string s) := by
  cases node with
  | text symbols =>
    rw [Value.ofNode?_text, show Token.decode? symbols = some s from h]
    rfl
  | _ => cases h

theorem Json.Reader.int64_plain {depth : Nat} {node : Json.Node} {i : Int}
    (h : Reader.int64 depth node = some i) :
    Value.ofNode? depth node = some (.number (.int i)) := by
  unfold Reader.int64 Reader.intWithin at h
  split at h
  · rename_i cs
    rw [Numeral.int?] at h
    split at h
    · rename_i j given
      split at given
      · rename_i number
        cases given
        split at h
        · cases h
          rw [Value.ofNode?_numeral, number]
          rfl
        · cases h
      · cases given
    · cases h
  · cases h

theorem Ipv4.reader_plain {depth : Nat} {node : Json.Node} {ip : Ipv4}
    (h : reader depth node = some ip) : Value.ofNode? depth node = some ip.toValue := by
  obtain ⟨s, text, parsed⟩ := Option.bind_eq_some_iff.mp h
  rw [Json.Reader.text_plain text, toValue, toText_ofText? parsed]

theorem Json.Value.string_back (depth : Nat) (s : String) :
    ofNode? depth (Value.string s).toNode = some (.string s) := ofNode?_toNode .string .string

namespace Secret

/-- A ciphertext is kept unless it is empty. -/
def PassedThrough (v w : Value) (name : String) : Prop :=
  ∀ member ∈ [masterName name, routerName name],
    w.get? member = (v.get? member).filter (· ≠ .string "")

/-- The same of the fields that the ciphertexts are read from and written to. -/
def Related (fields other : Fields) (depth : Nat) (name : String) : Prop :=
  ∀ member ∈ [masterName name, routerName name],
    fields.Related other depth member fun x y => y = x.filter (· ≠ .string "")

theorem related {fields : Fields} {members : List (String × Option Value)} {depth : Nat}
    {name : String} {s : Secret} (h : read fields (depth + 1) name = some s)
    (distinct : (members.map (·.1)).Nodup)
    (master : members.lookup (masterName name) = some (written s.master))
    (router : members.lookup (routerName name) = some (written s.router)) :
    Related fields (Fields.written members) depth name := by
  obtain ⟨a, first, h⟩ := Option.bind_eq_some_iff.mp h
  obtain ⟨b, second, h⟩ := Option.bind_eq_some_iff.mp h
  cases h
  rw [written_eq] at master router
  have one {member text : String}
      (given : fields.optional (depth + 1) member "" Reader.text = some text)
      (there : members.lookup member = some ((some (Value.string text)).filter (· ≠ .string ""))) :
      fields.Related (Fields.written members) depth member
        fun x y => y = x.filter (· ≠ .string "") :=
    Fields.related_unless _ Reader.text_plain given distinct there (Value.string_back depth text)
  exact List.forall_mem_cons.mpr
    ⟨one first master, List.forall_mem_singleton.mpr (one second router)⟩

end Secret

/-! ## Quotas -/

namespace Quota

/-- The version is always written; what is counted is kept. -/
structure PassedThrough (v w : Value) : Prop where
  version : w.get? "ver" = some ((v.get? "ver").getD (.number (.int 0)))
  usage : ∀ name, name ∉ fieldNames → w.get? name = v.get? name

theorem passedThrough {depth : Nat} {node : Json.Node} {q : Quota}
    (h : reader (depth + 1) node = some q) (integral : q.Integral) :
    ∃ v w, Value.ofNode? (depth + 1) node = some v ∧
      Value.ofNode? (depth + 1) q.toValue.toNode = some w ∧ PassedThrough v w := by
  have canonical := reader_canonical h
  obtain ⟨fields, record, given⟩ := reader_eq_some_iff.mp h
  have back : Value.ofNode? depth (Value.number (.int q.version)).toNode =
      some (.number (.int q.version)) :=
    Value.ofNode?_toNode (.number (version_integral canonical))
      (.number (version_integral canonical))
  have version := Fields.related_always (fun i => .number (.int i)) Reader.int64_plain given
    q.fieldValues_nodup rfl back
  obtain ⟨v, w, left, right, others, own⟩ :=
    Fields.readOpen_related record (readOpen_toValue canonical integral) fun name known => by
      rw [List.mem_singleton.mp known]
      exact ⟨_, version⟩
  exact ⟨v, w, left, right, own _ List.mem_cons_self _ version, others⟩

/-- What is written for the quota of a user that has none. -/
theorem empty_passedThrough (depth : Nat) :
    ∃ w, Value.ofNode? (depth + 1) empty.toValue.toNode = some w ∧
      PassedThrough (.object []) w := by
  have read : reader (depth + 1) (.object []) = some empty := rfl
  obtain ⟨v, w, left, right, passed⟩ :=
    passedThrough read fun _ he => absurd he List.not_mem_nil
  cases left
  exact ⟨w, right, passed⟩

end Quota

/-! ## Users -/

namespace User

/-- The quota is always written; ciphertexts are kept unless empty; what is not modelled is kept. -/
structure PassedThrough (v w : Value) : Prop where
  quota : ∃ q, w.get? "quotas" = some q ∧
    Quota.PassedThrough ((v.get? "quotas").getD (.object [])) q
  secrets : ∀ name ∈ secretNames, Secret.PassedThrough v w name
  others : ∀ name, name ∉ fieldNames → w.get? name = v.get? name

theorem passedThrough {depth : Nat} {node : Json.Node} {u : User}
    (h : reader (depth + 2) node = some u) (integral : u.Integral) :
    ∃ v w, Value.ofNode? (depth + 2) node = some v ∧
      Value.ofNode? (depth + 2) u.toValue.toNode = some w ∧ PassedThrough v w := by
  have canonical := reader_canonical h
  obtain ⟨fields, record, given⟩ := reader_eq_some_iff.mp h
  have own := u.fieldValues_nodup
  have there : u.fieldValues.lookup "quotas" = some (some u.quota.toValue) := rfl
  have quota := Fields.related_of_optional
    (r := fun x y => ∃ q, y = some q ∧ Quota.PassedThrough (x.getD (.object [])) q) given.quota
    own there
    (fun absent => by
      obtain ⟨w, right, passed⟩ := Quota.empty_passedThrough depth
      exact ⟨some w, by rw [absent, Option.map_some, right]; rfl, w, rfl, passed⟩)
    (fun node read => by
      obtain ⟨v, w, left, right, passed⟩ := Quota.passedThrough read integral.quota
      exact ⟨v, some w, left, by rw [Option.map_some, right]; rfl, w, rfl, passed⟩)
  have secret : ∀ name ∈ secretNames,
      Secret.Related fields (Fields.written u.fieldValues) (depth + 1) name := by
    simp only [secretNames, List.forall_mem_cons]
    exact ⟨Secret.related given.wgPsk own rfl rfl,
      Secret.related given.cloakBypassUid own rfl rfl,
      Secret.related given.ipsecUsername own rfl rfl,
      Secret.related given.ipsecPassword own rfl rfl,
      Secret.related given.outlineSecret own rfl rfl, nofun⟩
  have known (name : String) (hn : name ∈ secretNames) (member : String)
      (hm : member ∈ [Secret.masterName name, Secret.routerName name]) : member ∈ fieldNames :=
    List.mem_cons_of_mem _ (List.mem_flatMap.mpr ⟨name, hn, hm⟩)
  obtain ⟨v, w, left, right, rest, mine⟩ :=
    Fields.readOpen_related record (readOpen_toValue canonical integral) fun name given => by
      rcases List.mem_cons.mp given with rfl | given
      · exact ⟨_, quota⟩
      · obtain ⟨of, there, here⟩ := List.mem_flatMap.mp given
        exact ⟨_, secret of there name here⟩
  exact ⟨v, w, left, right, mine _ List.mem_cons_self _ quota,
    fun name hn member hm => mine _ (known name hn member hm) _ (secret name hn member hm), rest⟩

/-- Users pass through one after another. -/
theorem all_passedThrough {depth : Nat} {items : List Json.Node} {users : List User}
    (h : items.mapM (reader (depth + 2)) = some users) (integral : ∀ u ∈ users, u.Integral) :
    ∃ vs ws, items.mapM (Value.ofNode? (depth + 2)) = some vs ∧
      (users.map fun u => u.toValue.toNode).mapM (Value.ofNode? (depth + 2)) = some ws ∧
        List.Forall₂ PassedThrough vs ws := by
  replace h := mapM_some_iff.mp h
  induction h with
  | nil => exact ⟨[], [], rfl, rfl, .nil⟩
  | cons here _ ih =>
    obtain ⟨first, rest⟩ := List.forall_mem_cons.mp integral
    obtain ⟨vs, ws, left, right, passed⟩ := ih rest
    obtain ⟨v, w, own, again, one⟩ := passedThrough here first
    refine ⟨v :: vs, w :: ws, ?_, ?_, .cons one passed⟩
    · exact mapM_some_iff.mpr (.cons own (mapM_some_iff.mp left))
    · exact mapM_some_iff.mpr (.cons again (mapM_some_iff.mp right))

end User

/-! ## Brigades -/

namespace Brigade

/-- How two documents of one brigade differ. What must be given is the same; the domain and the
users are always written, the users in their order; transient state is kept unless it is null, and
ciphertexts unless they are empty; what is not modelled is the same. -/
structure PassedThrough (v w : Value) : Prop where
  required : ∀ name ∈ ["brigade_id", "endpoint_ipv4"], w.get? name = v.get? name
  domain : w.get? "endpoint_domain" = some ((v.get? "endpoint_domain").getD (.string ""))
  transient : ∀ name ∈ ["brigade_counters", "stats_counters_stack", "endpoints"],
    w.get? name = (v.get? name).filter (· ≠ .null)
  secrets : ∀ name ∈ secretNames, Secret.PassedThrough v w name
  users : ∃ us ws, (v.get? "users").getD (.array []) = .array us ∧
    w.get? "users" = some (.array ws) ∧ List.Forall₂ User.PassedThrough us ws
  others : ∀ name, name ∉ fieldNames → w.get? name = v.get? name

theorem passedThrough {node : Json.Node} {b : Brigade} (h : reader Reader.maxDepth node = some b)
    (integral : b.Integral) :
    ∃ v w, Value.ofNode? Reader.maxDepth node = some v ∧
      Value.ofNode? Reader.maxDepth b.toValue.toNode = some w ∧ PassedThrough v w := by
  have canonical := reader_canonical h
  obtain ⟨fields, record, given⟩ := reader_eq_some_iff.mp h
  have own := b.fieldValues_nodup
  have id := Fields.related_required _ Reader.text_plain given.id own rfl
    (Value.string_back 126 b.id)
  have address := Fields.related_required _ Ipv4.reader_plain given.address own rfl
    (Value.string_back 126 b.address.toText)
  have domain := Fields.related_always _ Reader.text_plain given.domain own rfl
    (Value.string_back 126 b.domain)
  have kept {name : String} {v : Value}
      (given : fields.optional 127 name .null Reader.value = some v) (canonical : v.Canonical 126)
      (integral : v.Integral) (there : b.fieldValues.lookup name = some (kept v)) :
      fields.Related (Fields.written b.fieldValues) 126 name fun x y => y = x.filter (· ≠ .null) :=
    Fields.related_unless (fun v => v) (fun h => h) given own (kept_eq v ▸ there)
      (Value.ofNode?_toNode canonical integral)
  have counters := kept given.counters canonical.counters integral.counters rfl
  have countersStack := kept given.countersStack canonical.countersStack integral.countersStack rfl
  have endpoints := kept given.endpoints canonical.endpoints integral.endpoints rfl
  have secret : ∀ name ∈ secretNames,
      Secret.Related fields (Fields.written b.fieldValues) 126 name := by
    simp only [secretNames, List.forall_mem_cons]
    exact ⟨Secret.related given.wgPrivate own rfl rfl, Secret.related given.ovCaKey own rfl rfl,
      Secret.related given.ipsecPsk own rfl rfl, nofun⟩
  have there : b.fieldValues.lookup "users" = some (some (.array (b.users.map User.toValue))) := rfl
  have users := Fields.related_of_optional
    (r := fun x y => ∃ us ws, x.getD (.array []) = .array us ∧ y = some (.array ws) ∧
      List.Forall₂ User.PassedThrough us ws) given.users own there
    (fun absent => ⟨some (.array []), by rw [absent]; rfl, [], [], rfl, rfl, .nil⟩)
    (fun node read => by
      obtain ⟨inner, items, depth, rfl, made⟩ := Reader.list_eq_some read
      cases depth
      obtain ⟨vs, ws, left, right, passed⟩ := User.all_passedThrough made integral.users
      refine ⟨.array vs, some (.array ws), ?_, ?_, vs, ws, rfl, rfl, passed⟩
      · rw [Value.ofNode?, left, Option.map_some]
      · rw [Option.map_some, Value.toNode, Value.itemNodes_eq, List.map_map, Value.ofNode?]
        exact congrArg (fun ws => some (ws.map Value.array)) right)
  have sealedName (name : String) (hn : name ∈ secretNames) (member : String)
      (hm : member ∈ [Secret.masterName name, Secret.routerName name]) : member ∈ fieldNames :=
    List.mem_append_left _ (List.mem_append_right _ (List.mem_flatMap.mpr ⟨name, hn, hm⟩))
  obtain ⟨v, w, left, right, rest, mine⟩ :=
    Fields.readOpen_related record (readOpen_toValue canonical integral) fun name known => by
      rcases List.mem_append.mp known with known | last
      · rcases List.mem_append.mp known with first | inner
        · simp only [List.mem_cons, List.not_mem_nil, or_false] at first
          rcases first with rfl | rfl | rfl | rfl | rfl | rfl
          · exact ⟨_, id⟩
          · exact ⟨_, domain⟩
          · exact ⟨_, address⟩
          · exact ⟨_, counters⟩
          · exact ⟨_, countersStack⟩
          · exact ⟨_, endpoints⟩
        · obtain ⟨of, there, here⟩ := List.mem_flatMap.mp inner
          exact ⟨_, secret of there name here⟩
      · rw [List.mem_singleton.mp last]
        exact ⟨_, users⟩
  refine ⟨v, w, left, right, ?_, mine _ (by decide) _ domain, ?_, ?_,
    mine _ (by decide) _ users, rest⟩
  · exact List.forall_mem_cons.mpr ⟨mine _ (by decide) _ id,
      List.forall_mem_singleton.mpr (mine _ (by decide) _ address)⟩
  · exact List.forall_mem_cons.mpr ⟨mine _ (by decide) _ counters, List.forall_mem_cons.mpr
      ⟨mine _ (by decide) _ countersStack,
        List.forall_mem_singleton.mpr (mine _ (by decide) _ endpoints)⟩⟩
  · exact fun name hn member hm =>
      mine _ (sealedName name hn member hm) _ (secret name hn member hm)

end Brigade

/-! ## Order -/

theorem Secret.read_rearranged {fields fields' : Fields} {depth : Nat} {name : String} {s : Secret}
    (h : fields.Rearranged fields') (given : read fields depth name = some s) :
    read fields' depth name = some s := by
  obtain ⟨master, first, given⟩ := Option.bind_eq_some_iff.mp given
  obtain ⟨router, second, given⟩ := Option.bind_eq_some_iff.mp given
  rw [read, h.optional Reader.text_stable first, h.optional Reader.text_stable second]
  exact given

theorem Quota.reader_stable : Reader.Stable reader := by
  intro depth node node' q h read
  obtain ⟨fields, record, given⟩ := reader_eq_some_iff.mp read
  obtain ⟨fields', record', same⟩ := Fields.readOpen_rearranged h record
  exact reader_eq_some_iff.mpr ⟨fields', record', same.optional Reader.int64_stable given⟩

theorem User.reader_stable : Reader.Stable reader := by
  intro depth node node' u h read
  obtain ⟨fields, record, given⟩ := reader_eq_some_iff.mp read
  obtain ⟨fields', record', same⟩ := Fields.readOpen_rearranged h record
  exact reader_eq_some_iff.mpr ⟨fields', record', {
    quota := same.optional Quota.reader_stable given.quota
    wgPsk := Secret.read_rearranged same given.wgPsk
    cloakBypassUid := Secret.read_rearranged same given.cloakBypassUid
    ipsecUsername := Secret.read_rearranged same given.ipsecUsername
    ipsecPassword := Secret.read_rearranged same given.ipsecPassword
    outlineSecret := Secret.read_rearranged same given.outlineSecret }⟩

namespace Brigade

theorem reader_stable : Reader.Stable reader := by
  intro depth node node' b h read
  obtain ⟨fields, record, given⟩ := reader_eq_some_iff.mp read
  obtain ⟨fields', record', same⟩ := Fields.readOpen_rearranged h record
  exact reader_eq_some_iff.mpr ⟨fields', record', {
    id := same.required Reader.text_stable given.id
    domain := same.optional Reader.text_stable given.domain
    address := same.required (Reader.parsed_stable Ipv4.ofText?) given.address
    counters := same.optional Reader.value_stable given.counters
    countersStack := same.optional Reader.value_stable given.countersStack
    endpoints := same.optional Reader.value_stable given.endpoints
    wgPrivate := Secret.read_rearranged same given.wgPrivate
    ovCaKey := Secret.read_rearranged same given.ovCaKey
    ipsecPsk := Secret.read_rearranged same given.ipsecPsk
    users := same.optional (Reader.list_stable User.reader_stable) given.users }⟩

/-- **What is not modelled passes through.** Take any document that is read as a brigade, with no
other numbers in it than integers of 64 bits, and the document that this brigade is written as. As
plain values they have the same members under all names that are not modelled, at each level; what
is modelled is kept or, where nothing is in it, left out. Had the members of any objects come in
another order, with different names each, the same bytes would have been written. -/
theorem passedThrough_of_read {document : Bytes} {tree : Json.Node}
    (parsed : Json.Node.ofBytes? document = some tree) (integral : tree.Integral) {b : Brigade}
    (read : ofBytes? document = some b) :
    (∃ v w, Value.ofBytes? document = some v ∧ Value.ofBytes? b.toBytes = some w ∧
      PassedThrough v w) ∧
    ∀ (document' : Bytes) (tree' : Json.Node), Json.Node.ofBytes? document' = some tree' →
      Relation.ReflTransGen Json.Node.Rearranged tree tree' →
        (ofBytes? document').map toBytes = some b.toBytes := by
  have made : reader Reader.maxDepth tree = some b := by
    rwa [ofBytes?, parsed, Option.bind_some] at read
  have own : b.Integral := reader_integral integral made
  constructor
  · obtain ⟨v, w, left, right, passed⟩ := passedThrough made own
    refine ⟨v, w, ?_, ?_, passed⟩
    · rw [Value.ofBytes?, parsed]
      exact left
    · rw [Value.ofBytes?, node_toBytes]
      exact right
  · intro document' tree' parsed' moved
    have same : reader Reader.maxDepth tree' = some b := by
      clear parsed'
      induction moved with
      | refl => exact made
      | tail _ step ih => exact reader_stable step ih
    rw [ofBytes?, parsed', Option.bind_some, Reader.run, same, Option.map_some]

theorem passedThrough_of_read_crowded :
    ∃ tree tree' b,
      Json.Node.ofBytes? (crowdedDocument [("z", .array []), ("a", .null)]) = some tree ∧
      tree.Integral ∧ ofBytes? (crowdedDocument [("z", .array []), ("a", .null)]) = some b ∧
      (∃ v w, Value.ofBytes? (crowdedDocument [("z", .array []), ("a", .null)]) = some v ∧
        Value.ofBytes? b.toBytes = some w ∧ PassedThrough v w) ∧
      Json.Node.ofBytes? (crowdedDocument [("a", .null), ("z", .array [])]) = some tree' ∧
      tree.Rearranged tree' ∧
      (ofBytes? (crowdedDocument [("a", .null), ("z", .array [])])).map toBytes =
        some b.toBytes := by
  have plain : ∀ m ∈ [("z", Value.array []), ("a", Value.null)], m.2.Integral := by simp
  have parsed := crowdedDocument_parsed [("z", .array []), ("a", .null)]
  have parsed' := crowdedDocument_parsed [("a", .null), ("z", .array [])]
  have integral := Value.toNode_integral (crowded_integral plain)
  have accepted : (ofBytes? (crowdedDocument [("z", .array []), ("a", .null)])).isSome = true := by
    decide +kernel
  obtain ⟨b, read⟩ := Option.isSome_iff_exists.mp accepted
  have swapped : (crowded [("z", .array []), ("a", .null)]).toNode.Rearranged
      (crowded [("a", .null), ("z", .array [])]).toNode := by
    have inner : Json.Node.Rearranged (Value.object [("z", .array []), ("a", .null)]).toNode
        (Value.object [("a", .null), ("z", .array [])]).toNode :=
      .object (.swap _ _ _) (by decide)
    have whole : ∃ front back, ∀ endpoints, (crowded endpoints).toNode =
        .object (front ++ (escaped "endpoints", (Value.object endpoints).toNode) :: back) :=
      ⟨[_, _, _, _, _, _], [_], fun _ => rfl⟩
    obtain ⟨front, back, same⟩ := whole
    rw [same, same]
    exact .member inner
  obtain ⟨passed, order⟩ := passedThrough_of_read parsed integral read
  exact ⟨_, _, b, parsed, integral, read, passed, parsed', swapped,
    order _ _ parsed' (.single swapped)⟩

end Brigade
end Rehoming
