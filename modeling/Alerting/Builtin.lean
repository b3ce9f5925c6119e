import Alerting.Rule
import Alerting.Vocabulary

/-!
# Built-in rules

The rules that come with the system. All are enabled and ring the bell.
-/

namespace Alerting

namespace Builtin

def resourceDuration : UInt64 := 300

def rule (name description objectType : String) (trigger : Trigger) (cooldownSeconds : Int64)
    (conditions : List Condition) : Rule :=
  { name, description, builtIn := true, objectType, trigger, cooldownSeconds, conditions,
    actions := [⟨.bell, "", ""⟩] }

def onEvent (name description objectType event : String) (cooldownSeconds : Int64) : Rule :=
  rule name description objectType (.event event) cooldownSeconds []

def onUsage (name description metric limit : String) (cooldownSeconds : Int64) : Rule :=
  rule name description ObjectType.system (.metric metric) cooldownSeconds
    [⟨PropertyName.value, .greaterThan, limit, resourceDuration⟩]

def rules : List Rule :=
  [onEvent "New species detected" "Notifies when a species is detected for the first time"
      ObjectType.detection EventName.newSpecies 60,
   onEvent "Audio stream disconnected" "Notifies when an RTSP or audio stream loses connection"
      ObjectType.stream EventName.streamDisconnected 300,
   onEvent "Audio stream error" "Notifies when an audio stream encounters an error"
      ObjectType.stream EventName.streamError 300,
   onEvent "Audio device error" "Notifies when a local audio capture device encounters an error"
      ObjectType.device EventName.deviceError 300,
   onUsage "High CPU usage" "Notifies when CPU usage exceeds 90% for 5 minutes"
      MetricName.cpuUsage "90" 900,
   onUsage "High memory usage" "Notifies when memory usage exceeds 90% for 5 minutes"
      MetricName.memoryUsage "90" 900,
   onUsage "Low disk space" "Notifies when disk usage exceeds 85% for 5 minutes"
      MetricName.diskUsage "85" 1800,
   onEvent "MQTT disconnected" "Notifies when the MQTT broker connection is lost"
      ObjectType.integration EventName.mqttDisconnected 600,
   onEvent "BirdWeather upload failed" "Notifies when a BirdWeather upload fails"
      ObjectType.integration EventName.birdWeatherFailed 600]

end Builtin

end Alerting
