import SignerBench.Account
import SignerBench.Emulator.Options
import SignerBench.Files.Path
import SignerBench.Vectors.Fixture

namespace SignerBench.Suite

def seed : String := Vectors.testSeed

def accountId : UInt32 := 1

def path : Account.Path := .forAccount 0

def randomizer : Block 12 :=
  ⟨[0x77, 0x01, 0x87, 0x94, 0x12, 0x64, 0xc9, 0x25, 0xf8, 0xba, 0x87, 0x76], rfl⟩

def addressIndex : Account.AddressIndex := ⟨accountId, none⟩

def randomizedIndex : Account.AddressIndex := ⟨accountId, some randomizer⟩

/-- The viewing key of the first account, as hexadecimal text. -/
def expectedViewingKey : String :=
  "92c3e768d3ecf0f2c4d93d879dbc16226fe8540443a8216d6b093d8684865a063a35ee29cccf93149dfa565ea6" ++
  "93aa5cd36dc5cf8adff15081038d31e796580b"

def expectedAddress : String :=
  "fc48056bc3fa38105dec3bbf85360034324a68f5f9ad7b1b5b6796f97d8279ae15308df6d619d93aab071c2ea3" ++
  "60d09dd0f3fa4d3a8a49b9f9b208ee42e491efff1162c3525990477dfc81a681b7d7c1"

def examplePlan : String :=
  "0abe020abb020aa8010a300a0a08c8daccb4a6f185e40612220a2029ea9c2f3371f6a487e7e95c247041f4a356" ++
  "f983eb064e5d2b3bcf322ca96a10122085197c5d60cf28b5ec756a657957b310072396577956fd5cd421ca62b4" ++
  "a6bc091a520a50890bc98e3698aa4578e419b028da5672e627c280d8b06166f4c42d5366bccf1fcf3b296cd61e" ++
  "8d744a21f75f2fb697183e18595d8a79008539d8fb138b405db09db65cc42d54c0e772e5d42d5f20b52f10f1a9" ++
  "e496d5f01d1a20732b53ee807140dd5672768ec1a38be09c531a0c6fc185d5f51c18f5f2261d012220f2e2f45f" ++
  "0ea734d7c11321cbf20427b379cfed6f71874ff97e8bcbbfce2d3d012a2073ec22fcaeccfadc720dd0350cf6af" ++
  "7ec274a74be832e8334613638edfd2fb10322093043bfea2094b0398f0e14bccc66a9ec335bbfd1f8e8b4c2c21" ++
  "428947f5e50d121c08cec08d8e1e1206757673762d361a0c0a0a08d6fab2e5c4f992aa0b"

/-- Where the built apps are, as seen from the directory `home` of the tests. -/
def appDir (home : String) (env : Environment) : String :=
  (env "PENUMBRA_APP_DIR").getD (Files.join (Files.join (Files.join home "..") "app") "output")

/-- Above the snapshots of the tests. -/
def snapshotsDir (home : String) : String := home

def fixture (home : String) (env : Environment) (setting file : String) : String :=
  (env setting).getD (Files.join (Files.join home "testcases") file)

def actionsFile (home : String) (env : Environment) : String :=
  fixture home env "ACTIONS_TESTCASES" "actions.json"

def vectorsFile (home : String) (env : Environment) : String :=
  fixture home env "PR4948_TESTCASES" Vectors.testCasesFile

def models (home : String) (env : Environment) : List Device.Model :=
  let dir := appDir home env
  [⟨.nanoX, "X", Files.join dir "app_x.elf"⟩, ⟨.nanoSP, "SP", Files.join dir "app_s2.elf"⟩,
    ⟨.stax, "ST", Files.join dir "app_stax.elf"⟩, ⟨.flex, "FL", Files.join dir "app_flex.elf"⟩]

def defaultOptions (device : Device.Kind) : Emulator.Options := { device := device, seed := seed }

/-- An address under review is confirmed by a tap where there is a touch screen. -/
def showAddressOptions (device : Device.Kind) : Emulator.Options :=
  if device.isTouch then
    { defaultOptions device with approveKeyword? := some "Confirm", approveAction := .tapKeyword }
  else defaultOptions device

end SignerBench.Suite
