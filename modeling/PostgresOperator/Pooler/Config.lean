import Mathlib.Data.List.AList
import Mathlib.Data.List.Sort
import PostgresOperator.Go.Strings

/-!
# The configuration of PgBouncer

`validatePoolerSpec` and `renderPgBouncerConfig` of `internal/controller/pooler_controller.go`.  A Go map is an
`AList`; the order in which a loop runs over it is that of the list.
-/

namespace PostgresOperator.Pooler

open Go

abbrev StringMap := AList fun _ : Str => Str

/-- `PoolerPoolMode`; `unset` is the empty string. -/
inductive PoolerPoolMode
  | unset
  | session
  | transaction
  | statement
  | other (text : Str)
  deriving DecidableEq

/-- `PoolerType`; `unset` is the empty string. -/
inductive PoolerType
  | unset
  | rw
  | ro
  | other (text : Str)
  deriving DecidableEq

structure PoolerAutoTLSSpec where
  serverEnabled : Bool
  clientEnabled : Bool

/-- `PoolerPgBouncerSpec`; an exporter is its image, a Secret its name. -/
structure PgBouncerSpec where
  image : Str
  exporter : Option Str := none
  poolMode : PoolerPoolMode := .unset
  parameters : StringMap := ∅
  pgHBA : List Str := []
  serverTLSSecret : Option Str := none
  serverCASecret : Option Str := none
  clientTLSSecret : Option Str := none
  clientCASecret : Option Str := none
  autoTLS : Option PoolerAutoTLSSpec := none

structure Pooler where
  name : Str
  type : PoolerType := .unset
  pgbouncer : PgBouncerSpec

def defaultPoolerPoolMode : PoolerPoolMode → PoolerPoolMode
  | .unset => .session
  | mode => mode

def defaultPoolerType : PoolerType → PoolerType
  | .unset => .rw
  | type => type

def PoolerPoolMode.toGo : PoolerPoolMode → Str
  | .unset => []
  | .session => "session"
  | .transaction => "transaction"
  | .statement => "statement"
  | .other text => text

/-! ### Checks -/

def operatorOwnedKeys : List Str :=
  ["listen_addr", "listen_port", "auth_file", "auth_hba_file", "pool_mode", "unix_socket_dir"]

variable (key : Str) (params : StringMap) (pooler : Pooler) (targets : List Str)

def isOperatorOwnedPgBouncerParameter : Bool := key ∈ operatorOwnedKeys

def pgBouncerIgnoreStartupParametersKey : Str := "ignore_startup_parameters"

def supportedKeys : List Str :=
  [str "auth_type", str "application_name_add_host", str "autodb_idle_timeout", str "cancel_wait_timeout",
    str "client_idle_timeout", str "client_login_timeout", str "client_tls_ciphers", str "client_tls_sslmode",
    str "client_tls13_ciphers", str "default_pool_size", str "disable_pqexec", str "dns_max_ttl",
    str "dns_nxdomain_ttl",
    str "idle_transaction_timeout", pgBouncerIgnoreStartupParametersKey, str "listen_backlog", str "log_connections",
    str "log_disconnections", str "log_pooler_errors", str "log_stats", str "max_client_conn",
    str "max_db_connections",
    str "max_packet_size", str "max_prepared_statements", str "max_user_connections", str "min_pool_size",
    str "pkt_buf",
    str "query_timeout", str "query_wait_timeout", str "reserve_pool_size", str "reserve_pool_timeout",
    str "sbuf_loopcnt",
    str "server_check_delay", str "server_check_query", str "server_connect_timeout", str "server_fast_close",
    str "server_idle_timeout", str "server_lifetime", str "server_login_retry", str "server_reset_query",
    str "server_reset_query_always", str "server_round_robin", str "server_tls_ciphers", str "server_tls13_ciphers",
    str "server_tls_protocols", str "server_tls_sslmode", str "stats_period", str "stats_users",
    str "suspend_timeout",
    str "tcp_defer_accept", str "tcp_keepalive", str "tcp_keepcnt", str "tcp_keepidle", str "tcp_keepintvl",
    str "tcp_socket_buffer", str "tcp_user_timeout", str "track_extra_parameters", str "verbose"]

def isSupportedPgBouncerParameter : Bool := key ∈ supportedKeys

/-- The body of the loop of `validatePgBouncerParameters`. -/
def validatePgBouncerParameter : Str :=
  if trimSpace key = [] then "Pooler spec.pgbouncer.parameters must not contain an empty key"
  else if trimSpace key ≠ key then
    "Pooler spec.pgbouncer.parameters key " ++ key ++ " must not contain surrounding whitespace"
  else if isOperatorOwnedPgBouncerParameter key then
    "Pooler spec.pgbouncer.parameters." ++ key ++ " is managed by the operator"
  else if !isSupportedPgBouncerParameter key then
    "Pooler spec.pgbouncer.parameters." ++ key ++ " is not in the CNPG-compatible PgBouncer allowlist"
  else []

def validatePgBouncerParameters : Str :=
  ((params.keys.map validatePgBouncerParameter).find? (· ≠ [])).getD []

def validatePoolerHBA : Str :=
  if pooler.pgbouncer.pgHBA = [] then []
  else if str "auth_type" ∈ pooler.pgbouncer.parameters then
    "Pooler spec.pgbouncer.pg_hba manages auth_type; remove spec.pgbouncer.parameters.auth_type"
  else if pooler.pgbouncer.pgHBA.any fun line => trimSpace line = [] then
    "Pooler spec.pgbouncer.pg_hba must not contain empty lines"
  else []

def validatePoolerSpec (cluster : Str) : Str :=
  if pooler.name = cluster then "Pooler name must differ from referenced PostgresCluster name"
  else if trimSpace pooler.pgbouncer.image = [] then "Pooler spec.pgbouncer.image is required"
  else if pooler.pgbouncer.exporter.any fun image => trimSpace image = [] then
    "Pooler spec.pgbouncer.exporter.image is required when exporter is configured"
  else if validatePgBouncerParameters pooler.pgbouncer.parameters ≠ [] then
    validatePgBouncerParameters pooler.pgbouncer.parameters
  else if validatePoolerHBA pooler ≠ [] then validatePoolerHBA pooler
  else if defaultPoolerPoolMode pooler.pgbouncer.poolMode ∉ [.session, .transaction, .statement] then
    "Pooler spec.pgbouncer.poolMode must be one of session, transaction, statement"
  else if defaultPoolerType pooler.type ∉ [.rw, .ro] then "Pooler spec.type must be one of rw, ro"
  else []

/-! ### TLS -/

def givenSecret (secret : Option Str) : Option Str := secret.filter fun name => trimSpace name ≠ []

def poolerAutoTLSServerActive : Bool :=
  pooler.pgbouncer.autoTLS.any fun auto => (givenSecret pooler.pgbouncer.serverTLSSecret).isNone && auto.serverEnabled

def poolerAutoTLSClientActive : Bool :=
  pooler.pgbouncer.autoTLS.any fun auto => (givenSecret pooler.pgbouncer.clientTLSSecret).isNone && auto.clientEnabled

def effectiveSecretName (secret : Option Str) (active : Bool) (issued : Str) : Str :=
  (givenSecret secret).getD (if active then issued else [])

def poolerEffectiveServerTLSSecretName : Str :=
  effectiveSecretName pooler.pgbouncer.serverTLSSecret (poolerAutoTLSServerActive pooler)
    (pooler.name ++ "-server-tls")

def poolerEffectiveServerCASecretName : Str :=
  effectiveSecretName pooler.pgbouncer.serverCASecret (poolerAutoTLSServerActive pooler)
    (pooler.name ++ "-server-tls")

def poolerEffectiveClientTLSSecretName : Str :=
  effectiveSecretName pooler.pgbouncer.clientTLSSecret (poolerAutoTLSClientActive pooler)
    (pooler.name ++ "-client-tls")

def poolerEffectiveClientCASecretName : Str :=
  effectiveSecretName pooler.pgbouncer.clientCASecret (poolerAutoTLSClientActive pooler)
    (pooler.name ++ "-client-tls")

/-! ### Rendering -/

def poolerHBAMountPath : Str := "/etc/pgbouncer/config/pg_hba.conf"

def poolerAuthMountPath : Str := "/etc/pgbouncer/userlist.txt"

def setAll (entries : List (Str × Str)) (params : StringMap) : StringMap :=
  entries.foldl (fun params e => params.insert e.1 e.2) params

def defaultParameters : List (Str × Str) :=
  [("listen_addr", "0.0.0.0"), ("listen_port", "5432"), ("auth_type", "scram-sha-256"),
    ("auth_file", poolerAuthMountPath), ("pool_mode", (defaultPoolerPoolMode pooler.pgbouncer.poolMode).toGo),
    ("unix_socket_dir", []), (pgBouncerIgnoreStartupParametersKey, "extra_float_digits,options")]

def hbaParameters : List (Str × Str) :=
  if pooler.pgbouncer.pgHBA = [] then [] else [("auth_type", "hba"), ("auth_hba_file", poolerHBAMountPath)]

/-- The parameters of `applyPoolerTLSParameters` for one side: its key and certificate, and its CA. -/
def tlsSide (side : String) (secret ca : Str) : List (Str × Str) :=
  (if secret ≠ [] then
    [(str side ++ "_tls_key_file", "/etc/pgbouncer/tls/" ++ str side ++ "/tls.key"),
      (str side ++ "_tls_cert_file", "/etc/pgbouncer/tls/" ++ str side ++ "/tls.crt"),
      (str side ++ "_tls_sslmode", "require")]
  else []) ++
  (if ca ≠ [] then
    [(str side ++ "_tls_ca_file", "/etc/pgbouncer/tls/" ++ str side ++ "-ca/ca.crt"),
      (str side ++ "_tls_sslmode", "verify-ca")]
  else [])

def tlsParameters : List (Str × Str) :=
  tlsSide "server" (poolerEffectiveServerTLSSecretName pooler) (poolerEffectiveServerCASecretName pooler) ++
    tlsSide "client" (poolerEffectiveClientTLSSecretName pooler) (poolerEffectiveClientCASecretName pooler)

def mergePgBouncerCSVParameter (value : Str) (required : List Str) : Str :=
  let items := ((split ',' value).map trimSpace).filter (· ≠ [])
  join ',' ((items ++ required).foldl (fun seen item => if item ∈ seen then seen else seen ++ [item]) [])

def ignoredStartupParameters (value : Str) : Str :=
  mergePgBouncerCSVParameter value ["extra_float_digits", "options"]

def roundRobinParameters : List (Str × Str) :=
  if defaultPoolerType pooler.type = .ro ∧ 1 < targets.length then
    [("server_round_robin", "1"), ("server_login_retry", "2")]
  else []

def renderedParameters : StringMap :=
  let params := setAll (tlsParameters pooler) (setAll (hbaParameters pooler)
    (pooler.pgbouncer.parameters ∪ setAll (defaultParameters pooler) ∅))
  let params := params.insert pgBouncerIgnoreStartupParametersKey
    (ignoredStartupParameters ((params.lookup pgBouncerIgnoreStartupParametersKey).getD []))
  params ∪ setAll (roundRobinParameters pooler targets) ∅

def parameterLine (key : Str) : Str := key ++ " = " ++ (params.lookup key).getD []

def renderPgBouncerConfig : Str :=
  let params := renderedParameters pooler targets
  "[databases]\n" ++ "* = host=" ++ join ',' targets ++ " port=5432\n\n[pgbouncer]\n" ++
    (params.keys.insertionSort (· ≤ ·)).flatMap fun key => parameterLine params key ++ str "\n"

end PostgresOperator.Pooler
