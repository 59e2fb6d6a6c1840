import HealthMonitor.Proofs.Config.Fields

/-!
# Configurations read back

The text that a configuration is rendered to is parsed to the same configuration
(`Config.parse_render`), whatever texts, numbers, labels and headers it holds and whichever of its
options are set. Record by record: the object that stands for a record can be written
(`Toml.Writable`), and its fields give the record back.
-/

namespace HealthMonitor

open Toml

/-! ### Values -/

theorem natural?_nat {limit n : Nat} (h : n < limit) :
    Json.natural? limit (Json.nat n) = some n := by
  simp [Json.natural?, Json.nat, Text.digits?_digitsOf, h]

namespace Legible

/-- Texts are read back, whatever characters they have. -/
theorem text : Legible Json.text Json.text? :=
  ⟨fun _ => rfl, rfl⟩

theorem bool : Legible Json.bool Json.bool? :=
  ⟨fun _ => rfl, rfl⟩

/-- A number of 32 bits is read back, as its reader has just their range. -/
theorem word : Legible (fun n : UInt32 => Json.nat n.toNat) ProbeSettings.wordOfJson? where
  back n := by
    have hread : ProbeSettings.wordOfJson? (Json.nat n.toNat) = some n := by
      rw [ProbeSettings.wordOfJson?, natural?_nat n.toNat_lt_size, Option.map_some,
        UInt32.ofNat_toNat]
    exact hread
  null := rfl

/-- A port is read back; the reader of ports does not mind zero. -/
theorem port : Legible (fun p : UInt16 => Json.nat p.toNat) Endpoint.portOfJson? where
  back p := by
    have hlimit : p.toNat < Endpoint.portLimit := p.toNat_lt_size
    have hread : Endpoint.portOfJson? (Json.nat p.toNat) = some p := by
      rw [Endpoint.portOfJson?, natural?_nat hlimit, Option.map_some, UInt16.ofNat_toNat]
    exact hread
  null := rfl

theorem kind : Legible (fun k : Kind => Json.text k.text)
    fun j => (Config.word j).bind Kind.ofText? where
  back k := by cases k <;> rfl
  null := rfl

theorem logFormat : Legible (fun f : LogFormat => Json.text f.word)
    fun j => (Config.word j).bind LogFormat.ofWord? where
  back f := by cases f <;> rfl
  null := rfl

end Legible

/-- The texts of a dictionary are said in the order in which it has them. -/
theorem said_ofDictionary (d : Dictionary String String) :
    said (Json.ofDictionary d) = Json.ofDictionary d := by
  refine said_obj_of_isPlain fun m hm => ?_
  obtain ⟨e, -, rfl⟩ := List.mem_map.mp hm
  exact .text e.2

/-- A dictionary is read back: its entries are in rising order, so reading them one after another
builds the same one again. -/
theorem Legible.dictionary : Legible Json.ofDictionary Json.dictionary? where
  back d := by
    have hentries := mapM_map_eq_some (f := fun e : String × String => (some e.1, Json.text e.2))
      (g := fun m => m.1.bind fun name => (Json.text? m.2).bind fun s => some (name, s))
      (fun _ => rfl) d.entries
    have hsame : Dictionary.ofList d.entries = d := by
      refine Dictionary.ext_get? fun k => ?_
      rw [Dictionary.get?_ofList, Dictionary.getLast?_filter_eq_lookup d.sorted]
      rfl
    rw [said_ofDictionary]
    simp only [Json.dictionary?, Json.ofDictionary, Json.obj, List.map_map, Function.comp_def,
      Option.bind_eq_bind, hentries, Option.bind_some, hsame]
  null := rfl

theorem writable_word (n : UInt32) (depth : Nat) : Writable depth (Json.nat n.toNat) := by
  have hlimit : n.toNat < wholeLimit := Nat.lt_trans n.toNat_lt_size (by decide)
  exact writable_of_isPlain (.nat hlimit) depth

theorem writable_port (p : UInt16) (depth : Nat) : Writable depth (Json.nat p.toNat) := by
  have hlimit : p.toNat < wholeLimit := Nat.lt_trans p.toNat_lt_size (by decide)
  exact writable_of_isPlain (.nat hlimit) depth

/-! ### Settings of checks -/

namespace CheckOptions

/-- The settings of checks are read off any object that has their members among its own, be it a
table of theirs alone or the table of a dependency. -/
theorem ofFields?_members (c : CheckOptions) {fields : List (String × Json)}
    (h : ∀ name ∈ names, fields.lookup name = (c.members.lookup name).bind said?) :
    ofFields? ⟨fields, false⟩ = some c := by
  have hinterval := Legible.text.nullable? (h "interval" (by decide)) rfl
  have htimeout := Legible.text.nullable? (h "timeout" (by decide)) rfl
  have hinitial := Legible.text.nullable? (h "initial_delay" (by decide)) rfl
  have hfailure := Legible.word.nullable? (h "failure_threshold" (by decide)) rfl
  have hsuccess := Legible.word.nullable? (h "success_threshold" (by decide)) rfl
  simp only [ofFields?, hinterval, htimeout, hinitial, hfailure, hsuccess, Option.bind_eq_bind,
    Option.bind_some]

theorem writable_members (c : CheckOptions) (depth : Nat) :
    ∀ m ∈ c.members, Writable depth m.2 := by
  have htext : ∀ o, Writable depth (Json.option Json.text o) :=
    writable_option fun t => writable_of_isPlain (.text t) depth
  have hword : ∀ o : Option UInt32, Writable depth (Json.option (fun n => Json.nat n.toNat) o) :=
    writable_option fun n => writable_word n depth
  simp only [members, List.forall_mem_cons]
  exact ⟨htext _, htext _, htext _, hword _, hword _, nofun⟩

/-- All members are there whether they are set or not, so their names are always the same. -/
theorem names_nodup (c : CheckOptions) : (c.members.map Prod.fst).Nodup :=
  (by decide : names.Nodup)

/-- The object has plain members only, so it can be written where one more table can be. -/
theorem writable (c : CheckOptions) {depth : Nat} (hdepth : depth < depthLimit) :
    Writable depth (Json.obj c.members) :=
  writable_obj hdepth c.names_nodup (c.writable_members _)

/-- **The settings of checks are read back.** -/
theorem legible : Legible (fun c => Json.obj c.members) ofJson? where
  back c := by
    have hw : Writable 0 (Json.obj c.members) := c.writable (by decide)
    have hfields := fields?_said c.names_nodup (fun _ => id) hw
    have hread := c.ofFields?_members fun name _ => lookup_given c.names_nodup hw name
    exact (congrArg (Option.bind · ofFields?) hfields).trans hread
  null := rfl

end CheckOptions

/-! ### Members that are left out -/

section Members

open ProbeSettings (member)

variable {α : Type} (name : String) (write : α → Json) (o : Option α)

/-- A member that may be left out is found under its own name only. -/
theorem lookup_member (key : String) :
    (member name write o).lookup key = if key = name then o.map write else none := by
  cases o with
  | none => simp [member]
  | some a =>
    by_cases h : key = name
    · simp [member, h]
    · have hne : (key == name) = false := by simpa using h
      simp [member, List.lookup_cons, h, hne]

/-- A member that may be left out adds its own name to an object or none. -/
theorem member_names : ((member name write o).map Prod.fst).Sublist [name] := by
  cases o with
  | none => exact List.nil_sublist _
  | some a => exact List.Sublist.refl _

variable {name write o} in
/-- What holds of all values that can be written holds of the member, if it is there. -/
theorem forall_mem_member {P : Json → Prop} (h : ∀ a, P (write a)) :
    ∀ m ∈ member name write o, P m.2 := by
  cases o with
  | none => nofun
  | some a =>
    intro m hm
    rw [List.mem_singleton.mp hm]
    exact h a

/-- A dictionary that is left out if it is empty. -/
def unlessEmpty (d : Dictionary String String) : Option (Dictionary String String) :=
  if d.isEmpty then none else some d

/-- A dictionary is written as a member that is left out if the dictionary is empty. -/
theorem member_unlessEmpty (d : Dictionary String String) :
    (if d.isEmpty then [] else [(name, Json.ofDictionary d)]) =
      member name Json.ofDictionary (unlessEmpty d) := by
  unfold unlessEmpty
  split <;> rfl

variable {name} in
/-- An empty dictionary is left out, and the default for a member that is not there gives it back.
-/
theorem Legible.unlessEmpty {fields members : List (String × Json)}
    (hfield : fields.lookup name = (members.lookup name).bind said?)
    {d : Dictionary String String}
    (hmember : members.lookup name = (unlessEmpty d).map Json.ofDictionary) :
    (⟨fields, false⟩ : Json.Fields).withDefault? name Dictionary.empty Json.dictionary? =
      some d := by
  refine Legible.dictionary.withDefault? hfield _ ?_
  rw [hmember, HealthMonitor.unlessEmpty]
  split
  next hempty =>
    obtain ⟨es, hes⟩ := d
    obtain rfl : es = [] := List.isEmpty_iff.mp hempty
    exact .inr ⟨rfl, rfl⟩
  next => exact .inl rfl

end Members

/-- The keys of a dictionary differ, so it can be written as an object. -/
theorem writable_ofDictionary {depth : Nat} (hdepth : depth < depthLimit)
    (d : Dictionary String String) : Writable depth (Json.ofDictionary d) := by
  have hkeys : d.keys.Nodup := d.pairwise_keys.imp Std.ne_of_lt
  refine writable_obj hdepth ?_ fun m hm => ?_
  · rw [List.map_map]
    exact hkeys
  · obtain ⟨e, -, rfl⟩ := List.mem_map.mp hm
    exact writable_of_isPlain (.text e.2) _

/-! ### Options for probes -/

namespace BasicAuth

theorem names_nodup (a : BasicAuth) :
    ([("username", Json.text a.username), ("password", Json.text a.password)].map Prod.fst).Nodup :=
  (by decide : ["username", "password"].Nodup)

theorem writable {depth : Nat} (hdepth : depth < depthLimit) (a : BasicAuth) :
    Writable depth a.toJson := by
  refine writable_obj hdepth a.names_nodup fun m hm => writable_of_isPlain ?_ _
  rcases List.mem_pair.mp hm with rfl | rfl
  · exact .text a.username
  · exact .text a.password

/-- **A name and its password are read back.** -/
theorem legible : Legible toJson (ofJson? .ignored) where
  back a := by
    have hw : Writable 0 a.toJson := writable (by decide) a
    have hfields := fields?_said a.names_nodup (fun _ => id) hw
    have hlookup := lookup_given a.names_nodup hw
    have husername := Legible.text.required? (hlookup "username") rfl
    have hpassword := Legible.text.required? (hlookup "password") rfl
    simp only [List.map_cons, List.map_nil] at hfields
    simp only [ofJson?, toJson, hfields, husername, hpassword, Option.bind_eq_bind,
      Option.bind_some]
  null := rfl

end BasicAuth

namespace ProbeSettings

/-- The members of the object that stands for options. -/
def members (s : ProbeSettings) : List (String × Json) :=
  member "http_path" Json.text s.path
    ++ member "http_tls" Json.bool s.tls
    ++ member "http_tls_skip_verify" Json.bool (some s.skipVerify)
    ++ member "http_headers" Json.ofDictionary (unlessEmpty s.headers)
    ++ member "http_bearer_token" Json.text s.bearerToken
    ++ member "http_basic_auth" BasicAuth.toJson s.basicAuth
    ++ member "redis_password" Json.text s.redisPassword
    ++ member "redis_db" (fun n => Json.nat n.toNat) s.redisDb

/-- Options are written as the object of those members that are not left out. -/
theorem toJson_eq (s : ProbeSettings) : s.toJson = Json.obj s.members := by
  rw [toJson, members, member_unlessEmpty]
  rfl

/-- The members stand in the order in which the reader knows their names, and none stands twice. -/
theorem members_names (s : ProbeSettings) : (s.members.map Prod.fst).Sublist names := by
  simp only [members, List.map_append]
  exact (((((((member_names _ _ _).append (member_names _ _ _)).append (member_names _ _ _)).append
    (member_names _ _ _)).append (member_names _ _ _)).append (member_names _ _ _)).append
      (member_names _ _ _)).append (member_names _ _ _)

/-- Options have objects inside of them, headers and a password, but nothing that is deeper. -/
theorem writable (s : ProbeSettings) {depth : Nat} (hdepth : depth + 1 < depthLimit) :
    Writable depth s.toJson := by
  have htext : ∀ name o, ∀ m ∈ member name Json.text o, Writable (depth + 1) m.2 :=
    fun _ _ => forall_mem_member fun t => writable_of_isPlain (.text t) _
  have hbool : ∀ name o, ∀ m ∈ member name Json.bool o, Writable (depth + 1) m.2 :=
    fun _ _ => forall_mem_member fun b => writable_of_isPlain (.bool b) _
  rw [toJson_eq]
  refine writable_obj (Nat.lt_of_succ_lt hdepth) ((members_names s).nodup (by decide)) ?_
  simp only [members, List.forall_mem_append]
  refine ⟨⟨⟨⟨⟨⟨⟨htext _ _, hbool _ _⟩, hbool _ _⟩, ?_⟩, htext _ _⟩, ?_⟩, htext _ _⟩, ?_⟩
  · exact forall_mem_member fun d => writable_ofDictionary hdepth d
  · exact forall_mem_member fun a => a.writable hdepth
  · exact forall_mem_member fun n => writable_word n _

/-- **The options for a probe are read back**, those that are set and those that are not. -/
theorem legible : Legible toJson (ofJson? .ignored) where
  back s := by
    have hnodup := (members_names s).nodup (by decide)
    have hw : Writable 0 (Json.obj s.members) := toJson_eq s ▸ writable s (by decide)
    have hfields := fields?_said hnodup (members_names s).subset hw
    have hlookup := lookup_given hnodup hw
    have hpath := Legible.text.optional? (hlookup "http_path") (o := s.path)
      (by simp [members, List.lookup_append, lookup_member])
    have htls := Legible.bool.optional? (hlookup "http_tls") (o := s.tls)
      (by simp [members, List.lookup_append, lookup_member])
    have hskip := Legible.bool.withDefault? (hlookup "http_tls_skip_verify") (a := s.skipVerify)
      false (.inl (by simp [members, List.lookup_append, lookup_member]))
    have hheaders := Legible.unlessEmpty (hlookup "http_headers") (d := s.headers)
      (by simp [members, List.lookup_append, lookup_member])
    have hbearer := Legible.text.optional? (hlookup "http_bearer_token") (o := s.bearerToken)
      (by simp [members, List.lookup_append, lookup_member])
    have hbasic := BasicAuth.legible.optional? (hlookup "http_basic_auth") (o := s.basicAuth)
      (by simp [members, List.lookup_append, lookup_member])
    have hpassword := Legible.text.optional? (hlookup "redis_password") (o := s.redisPassword)
      (by simp [members, List.lookup_append, lookup_member])
    have hdb := Legible.word.optional? (hlookup "redis_db") (o := s.redisDb)
      (by simp [members, List.lookup_append, lookup_member])
    rw [toJson_eq, ofJson?, hfields]
    simp only [ofFields?, hpath, htls, hskip, hheaders, hbearer, hbasic, hpassword, hdb,
      Option.bind_eq_bind, Option.bind_some]
  null := rfl

end ProbeSettings

/-! ### Dependencies -/

namespace DependencyConfig

/-- The members of the table that stands for a dependency. -/
def members (d : DependencyConfig) : List (String × Json) :=
  [("name", Json.text d.name),
    ("type", Json.text d.kind.text),
    ("critical", Json.option Json.bool d.critical),
    ("url", Json.option Json.text d.url),
    ("jdbc", Json.option Json.text d.jdbc),
    ("connection_string", Json.option Json.text d.connectionString),
    ("host", Json.option Json.text d.host),
    ("port", Json.option (fun p => Json.nat p.toNat) d.port)]
    ++ ProbeSettings.member "labels" Json.ofDictionary (unlessEmpty d.labels)
    ++ d.check.members
    ++ [("probe", d.probe.toJson)]

/-- A dependency is written as the object of its members. -/
theorem toJson_eq (d : DependencyConfig) : d.toJson = Json.obj d.members := by
  rw [toJson, members, member_unlessEmpty]

/-- The names of the members in their order. -/
def order : List String :=
  ["name", "type", "critical", "url", "jdbc", "connection_string", "host", "port"] ++ ["labels"]
    ++ CheckOptions.names ++ ["probe"]

/-- The members stand in their order, and only that of the labels may be missing. -/
theorem members_names (d : DependencyConfig) : (d.members.map Prod.fst).Sublist order := by
  simp only [members, List.map_append]
  exact (((List.Sublist.refl _).append (member_names _ _ _)).append (List.Sublist.refl _)).append
    (List.Sublist.refl _)

/-- Below a dependency there are its labels, its options, and the objects inside of these. -/
theorem writable (d : DependencyConfig) {depth : Nat} (hdepth : depth + 2 < depthLimit) :
    Writable depth d.toJson := by
  have htext : ∀ o, Writable (depth + 1) (Json.option Json.text o) :=
    writable_option fun t => writable_of_isPlain (.text t) _
  have hbool : ∀ o, Writable (depth + 1) (Json.option Json.bool o) :=
    writable_option fun b => writable_of_isPlain (.bool b) _
  have hport : ∀ o : Option UInt16,
      Writable (depth + 1) (Json.option (fun p => Json.nat p.toNat) o) :=
    writable_option fun p => writable_port p _
  rw [toJson_eq]
  refine writable_obj (by omega) ((members_names d).nodup (by decide)) ?_
  simp only [members, List.forall_mem_append, List.forall_mem_cons]
  refine ⟨⟨⟨⟨writable_of_isPlain (.text _) _, writable_of_isPlain (.text _) _, hbool _, htext _,
    htext _, htext _, htext _, hport _, nofun⟩, ?_⟩, d.check.writable_members _⟩, ?_, nofun⟩
  · exact forall_mem_member fun labels => writable_ofDictionary (by omega) labels
  · exact d.probe.writable hdepth

/-- The settings of checks stand among the other members and are found there as in a table of their
own. -/
theorem lookup_check (d : DependencyConfig) {name : String} (h : name ∈ CheckOptions.names) :
    d.members.lookup name = d.check.members.lookup name := by
  simp only [CheckOptions.names, List.mem_cons, List.not_mem_nil, or_false] at h
  rcases h with rfl | rfl | rfl | rfl | rfl <;>
    simp [members, List.lookup_append, lookup_member, List.lookup_cons, CheckOptions.members]

/-- **A dependency is read back.** -/
theorem legible : Legible toJson ofJson? where
  back d := by
    have hnodup := (members_names d).nodup (by decide)
    have hw : Writable 0 (Json.obj d.members) := toJson_eq d ▸ writable d (by decide)
    have hknown : ∀ name ∈ d.members.map Prod.fst, name ∈ names := fun name hname =>
      (by decide : ∀ name ∈ order, name ∈ names) name ((members_names d).subset hname)
    have hfields := fields?_said hnodup hknown hw
    have hlookup := lookup_given hnodup hw
    have hname := Legible.text.required? (hlookup "name") rfl
    have hkind := Legible.kind.required? (hlookup "type") rfl
    have hcritical := Legible.bool.nullable? (hlookup "critical") rfl
    have hurl := Legible.text.nullable? (hlookup "url") rfl
    have hjdbc := Legible.text.nullable? (hlookup "jdbc") rfl
    have hstring := Legible.text.nullable? (hlookup "connection_string") rfl
    have hhost := Legible.text.nullable? (hlookup "host") rfl
    have hport := Legible.port.nullable? (hlookup "port") rfl
    have hlabels := Legible.unlessEmpty (hlookup "labels") (d := d.labels)
      (by simp [members, List.lookup_append, lookup_member, List.lookup_cons, CheckOptions.members])
    have hcheck := d.check.ofFields?_members fun name h =>
      (hlookup name).trans (congrArg (Option.bind · said?) (d.lookup_check h))
    have hprobe := ProbeSettings.legible.withDefault? (hlookup "probe") (a := d.probe)
      ProbeSettings.none (.inl (by
        simp [members, List.lookup_append, lookup_member, List.lookup_cons, CheckOptions.members]))
    rw [toJson_eq]
    obtain ⟨table, htable⟩ : ∃ ms, said (Json.obj d.members) = .object ms := ⟨_, rfl⟩
    rw [htable] at hfields ⊢
    simp only [ofJson?, hfields, hname, hkind, hcritical, hurl, hjdbc, hstring, hhost, hport,
      hlabels, hcheck, hprobe, Option.bind_eq_bind, Option.bind_some]
  null := rfl

end DependencyConfig

/-! ### Configurations -/

namespace Config

/-- The members of the table that stands for a configuration. -/
def members (c : Config) : List (String × Json) := [
  ("name", Json.option Json.text c.name),
  ("listen", Json.option Json.text c.listen),
  ("log_format", Json.text c.logFormat.word),
  ("defaults", Json.option (fun d => Json.obj d.members) c.defaults),
  ("dependency", .array (c.dependencies.map DependencyConfig.toJson))]

theorem names_nodup (c : Config) : (c.members.map Prod.fst).Nodup :=
  (by decide : names.Nodup)

/-- A configuration fits a document: its defaults are a table of plain values, and its dependencies
a row of tables. -/
theorem writable (c : Config) : Writable 0 (Json.obj c.members) := by
  have htext : ∀ o, Writable 1 (Json.option Json.text o) :=
    writable_option fun t => writable_of_isPlain (.text t) _
  refine writable_obj (by decide) c.names_nodup ?_
  simp only [members, List.forall_mem_cons]
  refine ⟨htext _, htext _, writable_of_isPlain (.text _) _, ?_, ?_, nofun⟩
  · exact writable_option (fun d => d.writable (by decide)) _
  · refine writable_row ?_ ?_
    · exact List.forall_mem_map.mpr fun d _ => ⟨_, rfl⟩
    · exact List.forall_mem_map.mpr fun d _ => d.writable (by decide)

/-- The dependencies are read back one by one, in the order of the row. -/
theorem legible_row : Legible (fun ds => .array (ds.map DependencyConfig.toJson))
    fun j => (items? j).bind fun js => js.mapM DependencyConfig.ofJson? where
  back ds := by
    have hitems := mapM_map_eq_some DependencyConfig.legible.back ds
    change (saidItems (ds.map DependencyConfig.toJson)).mapM DependencyConfig.ofJson? = some ds
    rw [saidItems_eq, List.map_map]
    exact hitems
  null := rfl

/-- What a document says when a configuration is written into it gives the configuration back. -/
theorem ofJson?_said (c : Config) : ofJson? (said c.toJson) = some c := by
  have hfields : Json.fields? .ignored names (said (Json.obj c.members)) = _ :=
    fields?_said c.names_nodup (fun _ => id) c.writable
  have hlookup := lookup_given c.names_nodup c.writable
  have hname := Legible.text.nullable? (hlookup "name") rfl
  have hlisten := Legible.text.nullable? (hlookup "listen") rfl
  have hformat := Legible.logFormat.withDefault? (hlookup "log_format") LogFormat.text (.inl rfl)
  have hdefaults := CheckOptions.legible.nullable? (hlookup "defaults") rfl
  have hrow := legible_row.withDefault? (hlookup "dependency") [] (.inl rfl)
  change ofJson? (said (Json.obj c.members)) = some c
  simp only [ofJson?, hfields, hname, hlisten, hformat, hdefaults, hrow, Option.bind_eq_bind,
    Option.bind_some]

/-- **Configurations survive being written and read back.** -/
theorem parse_render (c : Config) : parse c.render = .ok c := by
  have hread : Toml.parse? c.render = some (said c.toJson) := parse?_write c.writable
  simp only [parse, hread, Option.bind_some, ofJson?_said]

end Config

end HealthMonitor
