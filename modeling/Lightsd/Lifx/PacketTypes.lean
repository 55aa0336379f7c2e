import Mathlib

/-! # LIFX packet types and the packet table

The enumeration of packet types with their wire codes, and the table that gives
each known type its payload size, its payload decoder and its handler. Sizes are
those of the packed payload structures. Three types of the enumeration have no
row in the table; a datagram of such a type is unknown to the daemon.
-/
namespace Lightsd.Lifx

inductive PacketType
  | setSite | getPanGateway | panGateway | getTime | setTime | timeState | getResetSwitchState
  | resetSwitchState | getDummyPayload | setDummyPayload | stateDummyPayload | getMeshInfo
  | meshInfo | getMeshFirmware | meshFirmware | getWifiInfo | wifiInfo | getWifiFirmwareState
  | wifiFirmwareState | getPowerState | setPowerState | powerState | getBulbLabel | setBulbLabel
  | bulbLabel | getTags | setTags | tags | getTagLabels | setTagLabels | tagLabels | getVersion
  | versionState | getInfo | infoState | getMcuRailVoltage | mcuRailVoltage | reboot
  | setFactoryTestMode | disableFactoryTestMode | stateFactoryTestMode | stateSite | stateReboot
  | setPanGateway | ack | setFactoryReset | stateFactoryReset | getLocation | setLocation
  | stateLocation | getGroup | setGroup | stateGroup | getOwner | setOwner | stateOwner
  | getFactoryTestMode | echoRequest | echoResponse | getLightState | setLightColor | setWaveform
  | setDimAbsolute | setDimRelative | setRgbw | lightStatus | getRailVoltage | stateRailVoltage
  | getTemperature | stateTemperature | setCalibrationCoefficients | setSimpleEvent
  | getSimpleEvent | stateSimpleEvent | getPower | setPower | statePower | setWaveformOptional
  | connectPlain | connectKey | stateConnect | getAuthKey | setAuthKey | stateAuthKey
  | setKeepAlive | stateKeepAlive | setHost | getHost | stateHost | getWifiState | setWifiState
  | wifiState | getAccessPoints | setAccessPoints | stateAccessPoints | getAccessPoint
  | stateAccessPoint | setAccessPointBroadcast | getAmbientLight | stateAmbientLight
  | getDimmerVoltage | stateDimmerVoltage
  deriving DecidableEq

namespace PacketType

def code : PacketType → UInt16
  | setSite => 0x01
  | getPanGateway => 0x02
  | panGateway => 0x03
  | getTime => 0x04
  | setTime => 0x05
  | timeState => 0x06
  | getResetSwitchState => 0x07
  | resetSwitchState => 0x08
  | getDummyPayload => 0x09
  | setDummyPayload => 0x0a
  | stateDummyPayload => 0x0b
  | getMeshInfo => 0x0c
  | meshInfo => 0x0d
  | getMeshFirmware => 0x0e
  | meshFirmware => 0x0f
  | getWifiInfo => 0x10
  | wifiInfo => 0x11
  | getWifiFirmwareState => 0x12
  | wifiFirmwareState => 0x13
  | getPowerState => 0x14
  | setPowerState => 0x15
  | powerState => 0x16
  | getBulbLabel => 0x17
  | setBulbLabel => 0x18
  | bulbLabel => 0x19
  | getTags => 0x1a
  | setTags => 0x1b
  | tags => 0x1c
  | getTagLabels => 0x1d
  | setTagLabels => 0x1e
  | tagLabels => 0x1f
  | getVersion => 0x20
  | versionState => 0x21
  | getInfo => 0x22
  | infoState => 0x23
  | getMcuRailVoltage => 0x24
  | mcuRailVoltage => 0x25
  | reboot => 0x26
  | setFactoryTestMode => 0x27
  | disableFactoryTestMode => 0x28
  | stateFactoryTestMode => 0x29
  | stateSite => 0x2a
  | stateReboot => 0x2b
  | setPanGateway => 0x2c
  | ack => 0x2d
  | setFactoryReset => 0x2e
  | stateFactoryReset => 0x2f
  | getLocation => 0x30
  | setLocation => 0x31
  | stateLocation => 0x32
  | getGroup => 0x33
  | setGroup => 0x34
  | stateGroup => 0x35
  | getOwner => 0x36
  | setOwner => 0x37
  | stateOwner => 0x38
  | getFactoryTestMode => 0x39
  | echoRequest => 0x3a
  | echoResponse => 0x3b
  | getLightState => 0x65
  | setLightColor => 0x66
  | setWaveform => 0x67
  | setDimAbsolute => 0x68
  | setDimRelative => 0x69
  | setRgbw => 0x6a
  | lightStatus => 0x6b
  | getRailVoltage => 0x6c
  | stateRailVoltage => 0x6d
  | getTemperature => 0x6e
  | stateTemperature => 0x6f
  | setCalibrationCoefficients => 0x70
  | setSimpleEvent => 0x71
  | getSimpleEvent => 0x72
  | stateSimpleEvent => 0x73
  | getPower => 0x74
  | setPower => 0x75
  | statePower => 0x76
  | setWaveformOptional => 0x77
  | connectPlain => 0xc9
  | connectKey => 0xca
  | stateConnect => 0xcb
  | getAuthKey => 0xcc
  | setAuthKey => 0xcd
  | stateAuthKey => 0xce
  | setKeepAlive => 0xcf
  | stateKeepAlive => 0xd0
  | setHost => 0xd1
  | getHost => 0xd2
  | stateHost => 0xd3
  | getWifiState => 0x12d
  | setWifiState => 0x12e
  | wifiState => 0x12f
  | getAccessPoints => 0x130
  | setAccessPoints => 0x131
  | stateAccessPoints => 0x132
  | getAccessPoint => 0x133
  | stateAccessPoint => 0x134
  | setAccessPointBroadcast => 0x135
  | getAmbientLight => 0x191
  | stateAmbientLight => 0x192
  | getDimmerVoltage => 0x193
  | stateDimmerVoltage => 0x194

def all : List PacketType :=
  [.setSite, .getPanGateway, .panGateway, .getTime, .setTime, .timeState, .getResetSwitchState,
   .resetSwitchState, .getDummyPayload, .setDummyPayload, .stateDummyPayload, .getMeshInfo,
   .meshInfo, .getMeshFirmware, .meshFirmware, .getWifiInfo, .wifiInfo, .getWifiFirmwareState,
   .wifiFirmwareState, .getPowerState, .setPowerState, .powerState, .getBulbLabel, .setBulbLabel,
   .bulbLabel, .getTags, .setTags, .tags, .getTagLabels, .setTagLabels, .tagLabels, .getVersion,
   .versionState, .getInfo, .infoState, .getMcuRailVoltage, .mcuRailVoltage, .reboot,
   .setFactoryTestMode, .disableFactoryTestMode, .stateFactoryTestMode, .stateSite, .stateReboot,
   .setPanGateway, .ack, .setFactoryReset, .stateFactoryReset, .getLocation, .setLocation,
   .stateLocation, .getGroup, .setGroup, .stateGroup, .getOwner, .setOwner, .stateOwner,
   .getFactoryTestMode, .echoRequest, .echoResponse, .getLightState, .setLightColor,
   .setWaveform, .setDimAbsolute, .setDimRelative, .setRgbw, .lightStatus, .getRailVoltage,
   .stateRailVoltage, .getTemperature, .stateTemperature, .setCalibrationCoefficients,
   .setSimpleEvent, .getSimpleEvent, .stateSimpleEvent, .getPower, .setPower, .statePower,
   .setWaveformOptional, .connectPlain, .connectKey, .stateConnect, .getAuthKey, .setAuthKey,
   .stateAuthKey, .setKeepAlive, .stateKeepAlive, .setHost, .getHost, .stateHost, .getWifiState,
   .setWifiState, .wifiState, .getAccessPoints, .setAccessPoints, .stateAccessPoints,
   .getAccessPoint, .stateAccessPoint, .setAccessPointBroadcast, .getAmbientLight,
   .stateAmbientLight, .getDimmerVoltage, .stateDimmerVoltage]

def ofCode? (c : UInt16) : Option PacketType := all.find? (fun t => t.code == c)

end PacketType

/-- The payload decoders the table refers to. -/
inductive Decoder
  | null | panGateway | lightStatus | powerState | tagLabels | tags | ipState
  | ipFirmwareInfo | productInfo | runtimeInfo | ambientLight
  deriving DecidableEq

/-- The packet handlers the table refers to. -/
inductive Handler
  | null | enosys | panGateway | lightStatus | powerState | tagLabels | tags | ipState
  | ipFirmwareInfo | productInfo | runtimeInfo | bulbLabel | ambientLight
  deriving DecidableEq

structure PacketInfo where
  type : PacketType
  size : ℕ
  decode : Decoder
  handle : Handler
  deriving DecidableEq

namespace PacketInfo

def requestOnly (type : PacketType) (size : ℕ) : PacketInfo := ⟨type,size,.null,.null⟩
def unimplemented (type : PacketType) : PacketInfo := ⟨type,0,.null,.enosys⟩

end PacketInfo

def packetTable : PacketType → Option PacketInfo
  | .getPanGateway => some (.requestOnly .getPanGateway 0)
  | .panGateway => some ⟨.panGateway,5,.panGateway,.panGateway⟩
  | .setTagLabels => some (.requestOnly .setTagLabels 40)
  | .getTagLabels => some (.requestOnly .getTagLabels 8)
  | .tagLabels => some ⟨.tagLabels,40,.tagLabels,.tagLabels⟩
  | .setLightColor => some (.requestOnly .setLightColor 13)
  | .setWaveform => some (.requestOnly .setWaveform 21)
  | .getLightState => some (.requestOnly .getLightState 0)
  | .lightStatus => some ⟨.lightStatus,52,.lightStatus,.lightStatus⟩
  | .setPowerState => some (.requestOnly .setPowerState 2)
  | .powerState => some ⟨.powerState,2,.powerState,.powerState⟩
  | .setTags => some (.requestOnly .setTags 8)
  | .tags => some ⟨.tags,8,.tags,.tags⟩
  | .getMeshInfo => some (.requestOnly .getMeshInfo 0)
  | .meshInfo => some ⟨.meshInfo,14,.ipState,.ipState⟩
  | .getMeshFirmware => some (.requestOnly .getMeshFirmware 0)
  | .meshFirmware => some ⟨.meshFirmware,20,.ipFirmwareInfo,.ipFirmwareInfo⟩
  | .getWifiInfo => some (.requestOnly .getWifiInfo 0)
  | .wifiInfo => some ⟨.wifiInfo,14,.ipState,.ipState⟩
  | .getWifiFirmwareState => some (.requestOnly .getWifiFirmwareState 0)
  | .wifiFirmwareState => some ⟨.wifiFirmwareState,20,.ipFirmwareInfo,.ipFirmwareInfo⟩
  | .getVersion => some (.requestOnly .getVersion 0)
  | .versionState => some ⟨.versionState,12,.productInfo,.productInfo⟩
  | .getInfo => some (.requestOnly .getInfo 0)
  | .infoState => some ⟨.infoState,24,.runtimeInfo,.runtimeInfo⟩
  | .setBulbLabel => some (.requestOnly .setBulbLabel 32)
  | .bulbLabel => some ⟨.bulbLabel,32,.null,.bulbLabel⟩
  | .getAmbientLight => some (.requestOnly .getAmbientLight 0)
  | .stateAmbientLight => some ⟨.stateAmbientLight,4,.ambientLight,.ambientLight⟩
  | .setSite => none
  | .getPowerState => none
  | .getTags => none
  | t => some (.unimplemented t)

def getPacketInfo (c : UInt16) : Option PacketInfo := (PacketType.ofCode? c).bind packetTable

end Lightsd.Lifx
