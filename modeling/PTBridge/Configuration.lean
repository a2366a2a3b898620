import PTBridge.Encoding.JsonRecord

/-!
# `common/configuration`: the configuration file

The entries of the configuration with their JSON tags, and `Save` and `Load` on JSON trees. A slice
is a list, so that a nil slice and an empty one are the same.

- `serverRecord` and `clientRecord` are the tags of the two entry types.
- `load_save`: what `Save` writes is loaded again.
-/

namespace PTBridge.Configuration

open PTBridge.Stream PTBridge.Encoding PTBridge.Encoding.JsonRecord

/-- `JsonServerConfigImpl` -/
structure ServerConfig where
  type : Bytes
  listen : Bytes
  useExternalService : Bool
  externalServiceAddress : Bytes
  cert : Bytes
  privateKey : Bytes
  encKey : Bytes
  protocol : Bytes
  httpAddr : Bytes
  httpsAddr : Bytes
  tlsCertFile : Bytes
  tlsKeyFile : Bytes
  acmeEmail : Bytes
  acmeDomain : Bytes
  selfSigned : Bool
  redirect : Bytes
  certDir : Bytes
  socksBind : Bytes
  deriving DecidableEq

/-- `JsonClientConfigImpl` -/
structure ClientConfig where
  type : Bytes
  listen : Bytes
  address : Bytes
  useExternalService : Bool
  cert : Bytes
  encKey : Bytes
  protocol : Bytes
  sni : Bytes
  insecure : Bool
  httpProxyAddr : Bytes
  followRedirect : Option Bool
  dnsUpstream : Bytes
  dnsNetwork : Bytes
  frontHost : Bytes
  frontIP : Bytes
  verbose : Bool
  proxy : Bytes
  forwardBind : Bytes
  deriving DecidableEq

/-- `JsonConfigImpl` -/
structure Config where
  server : List ServerConfig
  client : List ClientConfig
  deriving DecidableEq

/-! ## Tags -/

def serverTable : Table where
  fields :=
    [⟨"type", .text, false⟩, ⟨"listen", .text, false⟩, ⟨"external", .flag, false⟩,
      ⟨"external-service", .text, false⟩, ⟨"cert", .text, true⟩, ⟨"private-key", .text, true⟩,
      ⟨"enc-key", .text, true⟩, ⟨"protocol", .text, true⟩, ⟨"http", .text, true⟩,
      ⟨"https", .text, true⟩, ⟨"tls-cert", .text, true⟩, ⟨"tls-key", .text, true⟩,
      ⟨"acme-email", .text, true⟩, ⟨"acme-domain", .text, true⟩, ⟨"self-signed", .flag, true⟩,
      ⟨"redirect", .text, true⟩, ⟨"cert-dir", .text, true⟩, ⟨"socks-bind", .text, true⟩]
  nodup := by decide

def clientTable : Table where
  fields :=
    [⟨"type", .text, false⟩, ⟨"listen", .text, false⟩, ⟨"address", .text, false⟩,
      ⟨"external", .flag, false⟩, ⟨"cert", .text, false⟩, ⟨"enc-key", .text, true⟩,
      ⟨"protocol", .text, true⟩, ⟨"sni", .text, true⟩, ⟨"insecure", .flag, true⟩,
      ⟨"http-proxy", .text, true⟩, ⟨"redirect-follow", .flagPtr, true⟩,
      ⟨"dns-upstream", .text, true⟩, ⟨"dns-network", .text, true⟩, ⟨"front-host", .text, true⟩,
      ⟨"front-ip", .text, true⟩, ⟨"verbose", .flag, true⟩, ⟨"proxy", .text, true⟩,
      ⟨"forward-bind", .text, true⟩]
  nodup := by decide

/-- The fields of a server entry, in the order of the table. -/
def ServerConfig.values (s : ServerConfig) : List Value :=
  [.text s.type, .text s.listen, .flag s.useExternalService, .text s.externalServiceAddress,
    .text s.cert, .text s.privateKey, .text s.encKey, .text s.protocol, .text s.httpAddr,
    .text s.httpsAddr, .text s.tlsCertFile, .text s.tlsKeyFile, .text s.acmeEmail,
    .text s.acmeDomain, .flag s.selfSigned, .text s.redirect, .text s.certDir, .text s.socksBind]

def ServerConfig.ofValues (vs : List Value) : ServerConfig :=
  let v (i : Nat) := vs.getD i (.text [])
  { type := (v 0).asText, listen := (v 1).asText, useExternalService := (v 2).asFlag
    externalServiceAddress := (v 3).asText, cert := (v 4).asText, privateKey := (v 5).asText
    encKey := (v 6).asText, protocol := (v 7).asText, httpAddr := (v 8).asText
    httpsAddr := (v 9).asText, tlsCertFile := (v 10).asText, tlsKeyFile := (v 11).asText
    acmeEmail := (v 12).asText, acmeDomain := (v 13).asText, selfSigned := (v 14).asFlag
    redirect := (v 15).asText, certDir := (v 16).asText, socksBind := (v 17).asText }

/-- The fields of a client entry. -/
def ClientConfig.values (c : ClientConfig) : List Value :=
  [.text c.type, .text c.listen, .text c.address, .flag c.useExternalService, .text c.cert,
    .text c.encKey, .text c.protocol, .text c.sni, .flag c.insecure, .text c.httpProxyAddr,
    .flagPtr c.followRedirect, .text c.dnsUpstream, .text c.dnsNetwork, .text c.frontHost,
    .text c.frontIP, .flag c.verbose, .text c.proxy, .text c.forwardBind]

def ClientConfig.ofValues (vs : List Value) : ClientConfig :=
  let v (i : Nat) := vs.getD i (.text [])
  { type := (v 0).asText, listen := (v 1).asText, address := (v 2).asText
    useExternalService := (v 3).asFlag, cert := (v 4).asText, encKey := (v 5).asText
    protocol := (v 6).asText, sni := (v 7).asText, insecure := (v 8).asFlag
    httpProxyAddr := (v 9).asText, followRedirect := (v 10).asFlagPtr
    dnsUpstream := (v 11).asText, dnsNetwork := (v 12).asText, frontHost := (v 13).asText
    frontIP := (v 14).asText, verbose := (v 15).asFlag, proxy := (v 16).asText
    forwardBind := (v 17).asText }

def serverRecord : Record ServerConfig where
  table := serverTable
  values := ServerConfig.values
  ofValues := ServerConfig.ofValues
  kinds _ := rfl
  ofValues_values _ := rfl

def clientRecord : Record ClientConfig where
  table := clientTable
  values := ClientConfig.values
  ofValues := ClientConfig.ofValues
  kinds _ := rfl
  ofValues_values _ := rfl

/-! ## The file -/

/-- `Save`: the tree that is written. -/
def save (config : Config) : Json :=
  .obj [("server", serverRecord.marshalList config.server),
    ("client", clientRecord.marshalList config.client)]

/-- `Load` of a file with this tree; `none` is `Failed to parse config file`. -/
def load : Json → Option Config
  | .null => some ⟨[], []⟩
  | .obj ms =>
      match serverRecord.unmarshalList (member "server" ms),
        clientRecord.unmarshalList (member "client" ms) with
      | some server, some client => some ⟨server, client⟩
      | _, _ => none
  | _ => none

/-- A configuration that was saved is loaded again. -/
theorem load_save (config : Config) : load (save config) = some config := by
  simp [load, save, member, Record.unmarshalList_marshalList]

end PTBridge.Configuration
