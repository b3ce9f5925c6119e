/-!
# Vocabulary

The names of the things that are watched, of what happens to them, and of the properties that
events carry. Rules may use other names as well.
-/

namespace Alerting

namespace ObjectType

def stream : String := "stream"
def detection : String := "detection"
def application : String := "application"
def integration : String := "integration"
def device : String := "device"
def system : String := "system"

def all : List String := [stream, detection, application, integration, device, system]

end ObjectType

namespace EventName

def streamConnected : String := "stream.connected"
def streamDisconnected : String := "stream.disconnected"
def streamError : String := "stream.error"
def newSpecies : String := "detection.new_species"
def detectionOccurred : String := "detection.occurred"
def applicationStarted : String := "application.started"
def applicationStopped : String := "application.stopped"
def birdWeatherFailed : String := "integration.birdweather_failed"
def mqttConnected : String := "integration.mqtt_connected"
def mqttDisconnected : String := "integration.mqtt_disconnected"
def deviceStarted : String := "device.started"
def deviceStopped : String := "device.stopped"
def deviceError : String := "device.error"

def all : List String :=
  [streamConnected, streamDisconnected, streamError, newSpecies, detectionOccurred,
   applicationStarted, applicationStopped, birdWeatherFailed, mqttConnected, mqttDisconnected,
   deviceStarted, deviceStopped, deviceError]

end EventName

namespace MetricName

def cpuUsage : String := "system.cpu_usage"
def memoryUsage : String := "system.memory_usage"
def diskUsage : String := "system.disk_usage"

def all : List String := [cpuUsage, memoryUsage, diskUsage]

end MetricName

namespace PropertyName

def value : String := "value"
def speciesName : String := "species_name"
def scientificName : String := "scientific_name"
def confidence : String := "confidence"
def location : String := "location"
def streamName : String := "stream_name"
def streamUrl : String := "stream_url"
def deviceName : String := "device_name"
def error : String := "error"
def path : String := "path"
def broker : String := "broker"
def test : String := "test"

def all : List String :=
  [value, speciesName, scientificName, confidence, location, streamName, streamUrl, deviceName,
   error, path, broker, test]

end PropertyName

end Alerting
