import CqlGateway.Settings.Basic
import CqlGateway.Yaml.Filling
import CqlGateway.Yaml.Reader

/-!
# Settings in a file

A settings file is a document with a mapping for each part of the settings. What it does not
mention, or mentions without a value, stays as it is. Names that are not known are ignored.
-/

namespace CqlGateway.Settings

open Yaml

def fillStore (s : Execution.StoreSettings) (name : String) (v : Yaml) :
    Option Execution.StoreSettings :=
  match name with
  | "hosts" => do return { s with hosts := ← fillTexts v }
  | "keyspace" => do return { s with keyspace := ← fillText s.keyspace v }
  | "consistency" => do return { s with consistency := ← fillText s.consistency v }
  | "timeout" => do return { s with timeout := ← fillDuration s.timeout v }
  | "connect_timeout" => do return { s with connectTimeout := ← fillDuration s.connectTimeout v }
  | "username" => do return { s with username := ← fillText s.username v }
  | "password" => do return { s with password := ← fillText s.password v }
  | _ => some s

def fillConnection (c : Catalog.Connection) (name : String) (v : Yaml) :
    Option Catalog.Connection :=
  match name with
  | "type" => do return { c with type := ← fillText c.type v }
  | "host" => do return { c with host := ← fillText c.host v }
  | "port" => do return { c with tcpPort := ← fillText c.tcpPort v }
  | "database" => do return { c with database := ← fillText c.database v }
  | "user" => do return { c with user := ← fillText c.user v }
  | "password" => do return { c with password := ← fillText c.password v }
  | "path" => do return { c with path := ← fillText c.path v }
  | _ => some c

def fillAuthority (a : AuthoritySettings) (name : String) (v : Yaml) : Option AuthoritySettings :=
  match name with
  | "type" => do return { a with type := ← fillText a.type v }
  | "url" => do return { a with url := ← fillText a.url v }
  | "timeout" => do return { a with timeout := ← fillDuration a.timeout v }
  | "database" => do return { a with database := ← fillRecord fillConnection a.database v }
  | "allow_unannotated" =>
    do return { a with allowUnannotated := ← fillFlag a.allowUnannotated v }
  | _ => some a

def fillCache (c : CacheSettings) (name : String) (v : Yaml) : Option CacheSettings :=
  match name with
  | "ttl" => do return { c with ttl := ← fillDuration c.ttl v }
  | "size" => do return { c with size := ← fillInteger c.size v }
  | _ => some c

def fillReplication (r : Replication) (name : String) (v : Yaml) : Option Replication :=
  match name with
  | "class" => do return { r with strategy := ← fillText r.strategy v }
  | "factor" => do return { r with factor := ← fillInteger r.factor v }
  | "datacenter" => do return { r with dataCenter := ← fillText r.dataCenter v }
  | _ => some r

def fillRendering (limit : Int) (name : String) (v : Yaml) : Option Int :=
  if name = "default_limit" then fillInteger limit v else some limit

def fillLog (l : LogSettings) (name : String) (v : Yaml) : Option LogSettings :=
  match name with
  | "level" => do return { l with level := ← fillText l.level v }
  | "development" => do return { l with development := ← fillFlag l.development v }
  | _ => some l

def fill (s : Settings) (name : String) (v : Yaml) : Option Settings :=
  match name with
  | "cassandra" => do return { s with store := ← fillRecord fillStore s.store v }
  | "authority" => do return { s with authority := ← fillRecord fillAuthority s.authority v }
  | "cache" => do return { s with cache := ← fillRecord fillCache s.cache v }
  | "replication" =>
    do return { s with replication := ← fillRecord fillReplication s.replication v }
  | "translate" =>
    do return { s with defaultLimit := ← fillRecord fillRendering s.defaultLimit v }
  | "log" => do return { s with log := ← fillRecord fillLog s.log v }
  | _ => some s

def ofText? (text : String) : Option Settings :=
  (Yaml.read? text).bind (fillRecord fill {})

end CqlGateway.Settings
